import Susm.Supervisor.OpenSegments
import Susm.Supervisor.Segmentation

/-!
# The writer without errors

When nothing fails and retention spares the segment that is being written, every
turn of the writer returns.  The segment that is open is there, and its name is
the only one that a new segment could not have.
-/

namespace Susm.Supervisor

open Susm.Foundation
open Susm.Foundation.Retention
open Susm.Foundation.Stateful
open Susm.Protocol

/-! ## Other files -/

/-- The paths that an operation may change. -/
def DiskOp.touched : DiskOp → List LogPath
  | .createNew path | .append path _ _ | .create path | .removeFile path =>
      [path]
  | .rename source target => [source, target]
  | .copyEncode _ target => [target]
  | .createDirAll _ | .syncAll _ | .openRead _ => []

section Frame

variable {zstd : Zstd} {disk last : Disk} {path : LogPath}

theorem lookup_apply {op : DiskOp} (h : disk.apply zstd op = .ok last)
    (untouched : path ∉ op.touched) : last.lookup path = disk.lookup path := by
  cases op with
  | createDirAll directory => cases h; rfl
  | createNew other =>
      rw [Disk.apply] at h
      split at h <;> cases h
      rw [Map.lookup_insert_eq,
        if_neg (by simpa [DiskOp.touched] using untouched)]
  | append other offset bytes =>
      rw [Disk.apply] at h
      split at h <;> cases h
      rw [Map.lookup_modify, if_neg (by simpa [DiskOp.touched] using untouched)]
  | syncAll other => cases h; rfl
  | rename source target =>
      simp only [DiskOp.touched, List.mem_cons, List.not_mem_nil, or_false,
        not_or] at untouched
      rw [Disk.apply] at h
      split at h <;> cases h
      rw [Map.lookup_insert_eq, if_neg untouched.2, Map.lookup_erase_eq,
        if_neg untouched.1]
  | openRead other =>
      rw [Disk.apply] at h
      split at h <;> cases h
      rfl
  | create other =>
      cases h
      rw [Map.lookup_insert_eq,
        if_neg (by simpa [DiskOp.touched] using untouched)]
  | copyEncode source target =>
      rw [Disk.apply] at h
      split at h <;> cases h
      rw [Map.lookup_insert_eq,
        if_neg (by simpa [DiskOp.touched] using untouched)]
  | removeFile other =>
      rw [Disk.apply] at h
      split at h <;> cases h
      rw [Map.lookup_erase_eq,
        if_neg (by simpa [DiskOp.touched] using untouched)]

theorem lookup_applyAll {ops : List DiskOp}
    (h : disk.applyAll zstd ops = .ok last)
    (untouched : ∀ op ∈ ops, path ∉ op.touched) :
    last.lookup path = disk.lookup path := by
  induction ops generalizing disk with
  | nil => cases h; rfl
  | cons op ops ih =>
      rw [applyAll_cons] at h
      obtain ⟨next, hnext, hrest⟩ := bind_eq_ok_iff.mp h
      obtain ⟨hop, hops⟩ := List.forall_mem_cons.mp untouched
      rw [ih hrest hops, lookup_apply hnext hop]

theorem lookup_foldl_erase_of_not_mem {paths : List LogPath}
    (h : path ∉ paths) :
    (paths.foldl (fun disk path => disk.erase path) disk).lookup path =
      disk.lookup path := by
  induction paths generalizing disk with
  | nil => rfl
  | cons other paths ih =>
      rw [List.mem_cons, not_or] at h
      rw [List.foldl_cons, ih h.2, Map.lookup_erase_eq, if_neg h.1]

end Frame

/-! ## Open segments of a directory -/

/-- The last character of the name tells an open segment from its others. -/
def lastCharacter (path : LogPath) : Option Char :=
  path.getLast?.bind fun name => name.toList.getLast?

section Names

variable {machine : LogMachine} {directory : LogPath} {timestamp other : String}
  {segment number : Nat} {disk last : Disk}

theorem lastCharacter_open :
    lastCharacter (directory ++ [openName timestamp segment]) = some 'n' := by
  simp [lastCharacter, openName]

theorem lastCharacter_others (processId : Nat) :
    let path := directory ++ [openName timestamp segment]
    lastCharacter (finalizedPath path) = some 'l' ∧
      lastCharacter (compressedPath (finalizedPath path)) = some 't' ∧
      lastCharacter (temporaryPath processId (finalizedPath path)) =
        some 'p' := by
  intro path
  rw [finalizedPath_open, compressedPath, temporaryPath, appendedExtension,
    appendedExtension, withName_append, withName_append]
  simp [lastCharacter, finalizedName, List.getLast?_cons,
    List.getLast?_append]

theorem touched_of_mem_closingOps {path : LogPath} {op : DiskOp}
    (h : op ∈ (closingOps machine path).drop 2) {changed : LogPath}
    (touched : changed ∈ op.touched) :
    changed = finalizedPath path ∨
      changed = compressedPath (finalizedPath path) ∨
      changed = temporaryPath machine.processId (finalizedPath path) := by
  simp only [closingOps, List.drop_succ_cons, List.drop_zero, List.mem_cons,
    List.not_mem_nil, or_false] at h
  rcases h with rfl | rfl | rfl | rfl | rfl | rfl <;>
    simp only [DiskOp.touched, List.mem_cons, List.not_mem_nil,
      or_false] at touched <;> tauto

theorem lookup_closed
    (h : disk.applyAll machine.zstd (closingOps machine
      (directory ++ [openName timestamp segment])) = .ok last) :
    last.lookup (directory ++ [openName other number]) =
      if directory ++ [openName other number] =
          directory ++ [openName timestamp segment] then none
      else disk.lookup (directory ++ [openName other number]) := by
  obtain ⟨hl, ht, hp⟩ := @lastCharacter_others directory timestamp segment
    machine.processId
  have hn := @lastCharacter_open directory other number
  have hfinalized : directory ++ [openName other number] ≠
      finalizedPath (directory ++ [openName timestamp segment]) :=
    fun heq => by simp [← heq, hn] at hl
  have hcompressed : directory ++ [openName other number] ≠
      compressedPath (finalizedPath
        (directory ++ [openName timestamp segment])) :=
    fun heq => by simp [← heq, hn] at ht
  have htemporary : directory ++ [openName other number] ≠
      temporaryPath machine.processId (finalizedPath
        (directory ++ [openName timestamp segment])) :=
    fun heq => by simp [← heq, hn] at hp
  unfold closingOps at h
  rw [applyAll_cons] at h
  obtain ⟨synced, hsynced, h⟩ := bind_eq_ok_iff.mp h
  cases hsynced
  rw [applyAll_cons] at h
  obtain ⟨renamed, hrenamed, hrest⟩ := bind_eq_ok_iff.mp h
  have huntouched : ∀ op ∈ (closingOps machine
      (directory ++ [openName timestamp segment])).drop 2,
      directory ++ [openName other number] ∉ op.touched := by
    intro op hop touched
    rcases touched_of_mem_closingOps hop touched with heq | heq | heq
    · exact hfinalized heq
    · exact hcompressed heq
    · exact htemporary heq
  rw [lookup_applyAll hrest huntouched]
  rw [Disk.apply] at hrenamed
  split at hrenamed <;> cases hrenamed
  rw [Map.lookup_insert_eq, if_neg hfinalized, Map.lookup_erase_eq]

end Names

def FreeNames (directory : LogPath) (timestamps : List String)
    (disk : Disk) : Prop :=
  ∀ timestamp ∈ timestamps, ∀ segment,
    disk.lookup (directory ++ [openName timestamp segment]) = none

/-- The segment is there, and can be opened under every other name. -/
structure OnlyOpen (directory : LogPath) (timestamps : List String)
    (path : LogPath) (disk : Disk) : Prop where
  present : (disk.lookup path).isSome
  free : ∀ timestamp ∈ timestamps, ∀ segment,
    directory ++ [openName timestamp segment] ≠ path →
      disk.lookup (directory ++ [openName timestamp segment]) = none

/-! ## Buffers -/

section Buffers

variable {zstd : Zstd} {disk : Disk} {writer : BufWriter} {extra : List UInt8}

def SameFiles (disk last : Disk) : Prop :=
  ∀ path, (last.lookup path).isSome = (disk.lookup path).isSome

theorem SameFiles.trans {middle last : Disk} (first : SameFiles disk middle)
    (second : SameFiles middle last) : SameFiles disk last :=
  fun path => (second path).trans (first path)

theorem OnlyOpen.congr {directory path : LogPath} {timestamps : List String}
    {last : Disk} (only : OnlyOpen directory timestamps path disk)
    (same : SameFiles disk last) :
    OnlyOpen directory timestamps path last where
  present := (same path).trans only.present
  free timestamp htimestamp segment hne := by
    have hfree := only.free timestamp htimestamp segment hne
    rw [← Option.isNone_iff_eq_none, ← Option.not_isSome] at hfree ⊢
    rwa [same]

theorem appendOp_succeeds (room : writer.written + extra.length < fileLimit) :
    ∃ last, disk.apply zstd (writer.appendOp extra) = .ok last ∧
      SameFiles disk last := by
  refine ⟨_, if_pos room, fun path => ?_⟩
  rw [Map.lookup_modify]
  split
  · rw [Option.isSome_map]
  · rfl

theorem flushBuf_succeeds
    (room : writer.written + writer.buffer.length < fileLimit) :
    ∃ last, disk.applyAll zstd writer.flushBuf.1 = .ok last ∧
      SameFiles disk last := by
  unfold BufWriter.flushBuf
  split
  · exact ⟨disk, rfl, fun _ => rfl⟩
  · obtain ⟨last, hlast, same⟩ :=
      @appendOp_succeeds zstd disk writer writer.buffer room
    refine ⟨last, ?_, same⟩
    rw [applyAll_cons, hlast]
    rfl

theorem flushBuf_written (writer : BufWriter) :
    writer.flushBuf.2.written =
      writer.written + writer.buffer.length := by
  unfold BufWriter.flushBuf
  split <;> simp [*]

theorem writeAll_succeeds
    (room : writer.written + writer.buffer.length + extra.length <
      fileLimit) :
    ∃ last, disk.applyAll zstd (writer.writeAll extra).1 = .ok last ∧
      SameFiles disk last := by
  unfold BufWriter.writeAll
  split
  · exact ⟨disk, rfl, fun _ => rfl⟩
  rename_i hfits
  by_cases hflush : extra.length > writer.spareCapacity
  · obtain ⟨flushed, hflushed, sameFlushed⟩ :=
      @flushBuf_succeeds zstd disk writer (by omega)
    rw [if_pos hflush]
    by_cases hlarge : extra.length ≥ BufWriter.capacity
    · obtain ⟨last, hlast, same⟩ :=
        @appendOp_succeeds zstd flushed writer.flushBuf.2 extra
          (by rw [flushBuf_written]; exact room)
      simp only [if_pos hlarge]
      refine ⟨last, ?_, sameFlushed.trans same⟩
      rw [applyAll_append, hflushed]
      change Disk.applyAll zstd flushed [_] = _
      rw [applyAll_cons, hlast]
      rfl
    · simp only [if_neg hlarge]
      exact ⟨flushed, hflushed, sameFlushed⟩
  · rw [if_neg hflush]
    by_cases hlarge : extra.length ≥ BufWriter.capacity
    · obtain ⟨last, hlast, same⟩ :=
        @appendOp_succeeds zstd disk writer extra (by omega)
      simp only [if_pos hlarge, List.nil_append]
      refine ⟨last, ?_, same⟩
      rw [applyAll_cons, hlast]
      rfl
    · simp only [if_neg hlarge]
      exact ⟨disk, rfl, fun _ => rfl⟩

end Buffers

/-! ## Nothing fails -/

/-- Nothing that the host is asked for fails. -/
structure LogHost.Works (host : LogHost) : Prop where
  operations : ∀ op, host.fails op = false
  listing : ∀ path, ∃ entries, host.retention.readTree path = .ok entries
  removal : ∀ path, host.retention.remove path = .ok ()

section Progress

variable {machine : LogMachine} {host : LogHost} {first : LogWorld}
  {disk : Disk}

theorem perform_returns {op : DiskOp} (works : host.Works)
    (h : first.disk.apply machine.zstd op = .ok disk) :
    Returns (perform machine host op) first ()
      { first with disk := disk } := by
  unfold Returns perform
  change (if host.fails op then _ else _) = _
  rw [works.operations, if_neg Bool.false_ne_true, h]

theorem performAll_returns {ops : List DiskOp} (works : host.Works)
    (h : first.disk.applyAll machine.zstd ops = .ok disk) :
    Returns (performAll machine host ops) first ()
      { first with disk := disk } := by
  induction ops generalizing first with
  | nil =>
      cases h
      exact returns_pure_iff.mpr ⟨rfl, rfl⟩
  | cons op ops ih =>
      rw [applyAll_cons] at h
      obtain ⟨next, hnext, hrest⟩ := bind_eq_ok_iff.mp h
      exact returns_bind_iff.mpr ⟨(), _, perform_returns works hnext,
        @ih { first with disk := next } hrest⟩

theorem FinishCall.ops_succeed {call : FinishCall}
    (names : SegmentPath machine call.path)
    (present : (call.disk.lookup call.path).isSome)
    (room : call.writer.written + call.writer.buffer.length < fileLimit) :
    ∃ disk, call.disk.applyAll machine.zstd (call.ops machine) = .ok disk := by
  obtain ⟨flushed, hflushed, same⟩ :=
    @flushBuf_succeeds machine.zstd call.disk call.writer room
  rw [← same, Option.isSome_iff_exists] at present
  obtain ⟨whole, hwhole⟩ := present
  obtain ⟨disk, hdisk, -⟩ := (closingOps_pass names hwhole).take
    (closingOps machine call.path).length
  rw [List.take_length] at hdisk
  exact ⟨disk, by rw [FinishCall.ops, applyAll_append, hflushed]; exact hdisk⟩

theorem finish_returns {writer : SegmentWriter} {buffer : BufWriter}
    (works : host.Works) (names : SegmentPath machine writer.path)
    (active : writer.writer = some buffer)
    (present : (first.disk.lookup writer.path).isSome)
    (room : buffer.written + buffer.buffer.length < fileLimit) :
    let call : FinishCall := ⟨writer.path, buffer, first.disk⟩
    ∃ disk, first.disk.applyAll machine.zstd (call.ops machine) = .ok disk ∧
      Returns (writer.finish machine host) first { writer with writer := none }
        { first with
          disk := disk
          finished := first.finished ++ [call] } := by
  intro call
  obtain ⟨disk, hdisk⟩ := @FinishCall.ops_succeed machine call names present room
  refine ⟨disk, hdisk, ?_⟩
  unfold SegmentWriter.finish
  rw [active]
  refine returns_bind_iff.mpr ⟨first, first,
    returns_get_iff.mpr ⟨rfl, rfl⟩, ?_⟩
  refine returns_bind_iff.mpr ⟨(), _, returns_modify_iff.mpr rfl, ?_⟩
  refine returns_bind_iff.mpr ⟨(), _, performAll_returns works hdisk, ?_⟩
  exact returns_pure_iff.mpr ⟨rfl, rfl⟩

theorem removals_result {configuration : ExecutionConfiguration}
    (works : host.Works)
    (tree : 2 ≤ (machine.components configuration.logDirectory).length) :
    (RetentionCall.removals machine ⟨configuration, host.retention⟩).result =
      .ok () := by
  have hfiles : ∃ files, finalizedFiles
      (machine.components configuration.logDirectory) host.retention =
        .ok files := by
    unfold finalizedFiles workloadTree
    rw [if_neg (by omega)]
    obtain ⟨entries, hentries⟩ := works.listing
      ((machine.components configuration.logDirectory).take
        ((machine.components configuration.logDirectory).length - 2))
    exact ⟨_, bind_eq_ok_iff.mpr ⟨_, rfl,
      bind_eq_ok_iff.mpr ⟨entries, hentries, rfl⟩⟩⟩
  obtain ⟨files, hfiles⟩ := hfiles
  rw [RetentionCall.removals, applyRetention, hfiles]
  exact applyLimits_result_of_ok works.removal

theorem retain_returns {configuration : ExecutionConfiguration}
    (works : host.Works)
    (tree : 2 ≤ (machine.components configuration.logDirectory).length) :
    let call : RetentionCall := ⟨configuration, host.retention⟩
    Returns (retain machine host configuration) first ()
      { first with
        disk := (call.removals machine).paths.foldl
          (fun disk path => disk.erase path) first.disk
        retained := first.retained ++ [call] } := by
  intro call
  have hresult := @removals_result machine host configuration works tree
  unfold Returns retain
  change ((RetentionCall.removals machine
    ⟨configuration, host.retention⟩).result, _) = _
  rw [hresult]

end Progress

/-! ## One turn -/

/-- The segment that is written is there and has room in its file, and nothing
is in the way of the next one. -/
structure Opened (directory : LogPath) (timestamps : List String)
    (sizes : List Nat) (locals : WriterLocals) (writer : SegmentWriter)
    (disk : Disk) : Prop where
  active : locals.writer = some writer
  only : OnlyOpen directory timestamps writer.path disk
  room : writer.bytes < fileLimit
  sized : locals.configuration.segmentSize ∈ sizes

section Turns

variable {machine : LogMachine} {host : LogHost}
  {initial : ExecutionConfiguration} {Fixed : Prop}
  {groups : List (List OutputChunk)} {current : List OutputChunk}
  {locals : WriterLocals} {writer : SegmentWriter} {buffer : BufWriter}
  {first : LogWorld} {timestamps : List String} {sizes : List Nat}

theorem OnlyOpen.retain {directory path : LogPath}
    {configuration : ExecutionConfiguration}
    (only : OnlyOpen directory timestamps path first.disk)
    (works : host.Works)
    (tree : 2 ≤ (machine.components configuration.logDirectory).length)
    (spared : path ∉ (RetentionCall.removals machine
      ⟨configuration, host.retention⟩).paths) :
    ∃ world, Returns (retain machine host configuration) first () world ∧
      OnlyOpen directory timestamps path world.disk := by
  refine ⟨_, retain_returns works tree, ?_, fun timestamp htimestamp segment
    hne => ?_⟩
  · rw [lookup_foldl_erase_of_not_mem spared]
    exact only.present
  · by_contra hsome
    obtain ⟨content, hcontent⟩ := Option.ne_none_iff_exists'.mp hsome
    have hbefore := lookup_foldl_erase hcontent
    rw [only.free timestamp htimestamp segment hne] at hbefore
    cases hbefore

theorem FreeNames.retain {directory : LogPath}
    {configuration : ExecutionConfiguration}
    (free : FreeNames directory timestamps first.disk) (works : host.Works)
    (tree : 2 ≤ (machine.components configuration.logDirectory).length) :
    ∃ world, Returns (retain machine host configuration) first () world ∧
      FreeNames directory timestamps world.disk := by
  refine ⟨_, retain_returns works tree, fun timestamp htimestamp segment => ?_⟩
  by_contra hsome
  obtain ⟨content, hcontent⟩ := Option.ne_none_iff_exists'.mp hsome
  have hbefore := lookup_foldl_erase hcontent
  rw [free timestamp htimestamp segment] at hbefore
  cases hbefore

theorem Running.room
    (running : Running machine initial Fixed groups current locals writer
      buffer first) :
    buffer.written + buffer.buffer.length = writer.bytes :=
  running.buffered.length.trans running.bytes.symm

theorem Running.closes
    (running : Running machine initial Fixed groups current locals writer
      buffer first) (works : host.Works)
    (opened : Opened (machine.components initial.logDirectory) timestamps
      sizes locals writer first.disk) :
    ∃ done world, Returns (writer.finish machine host) first done world ∧
      FreeNames (machine.components initial.logDirectory) timestamps
        world.disk := by
  obtain ⟨own, hname⟩ := running.name
  have names : SegmentPath machine writer.path := by
    rw [hname]
    exact segmentPath machine _ own _
  obtain ⟨disk, hdisk, hreturns⟩ := finish_returns works names running.active
    opened.only.present (running.room ▸ opened.room)
  refine ⟨_, _, hreturns, fun timestamp htimestamp segment => ?_⟩
  rw [FinishCall.ops, applyAll_append] at hdisk
  obtain ⟨flushed, hflushed, hclosed⟩ := bind_eq_ok_iff.mp hdisk
  dsimp only at hclosed hflushed ⊢
  rw [hname] at hclosed
  rw [lookup_closed hclosed, ← hname]
  split
  · rfl
  · rename_i hne
    obtain ⟨again, hagain, same⟩ :=
      @flushBuf_succeeds machine.zstd first.disk buffer
        (running.room ▸ opened.room)
    rw [hflushed] at hagain
    cases hagain
    exact (opened.only.congr same).free timestamp htimestamp segment hne

theorem openNext_returns (works : host.Works)
    (directory : locals.configuration.logDirectory = initial.logDirectory)
    (listed : host.timestamp ∈ timestamps)
    (sized : locals.configuration.segmentSize ∈ sizes)
    (free : FreeNames (machine.components initial.logDirectory) timestamps
      first.disk) :
    ∃ next opened world, Returns (locals.openNext machine host) first next
        world ∧
      next.configuration = locals.configuration ∧
      opened.path = machine.components initial.logDirectory ++
        [openName host.timestamp locals.nextSegment] ∧
      Opened (machine.components initial.logDirectory) timestamps sizes next
        opened world.disk := by
  have hfree := free host.timestamp listed locals.nextSegment
  rw [← directory] at hfree
  have hcreate : first.disk.apply machine.zstd (.createNew
      (machine.components locals.configuration.logDirectory ++
        [openName host.timestamp locals.nextSegment])) = .ok _ :=
    if_neg (by rw [hfree]; decide)
  refine ⟨_, _, _, returns_bind_iff.mpr ⟨_, _, returns_bind_iff.mpr
    ⟨(), _, perform_returns works hcreate, returns_pure_iff.mpr ⟨rfl, rfl⟩⟩,
    returns_pure_iff.mpr ⟨rfl, rfl⟩⟩, rfl, ?_, rfl, ⟨?_, ?_⟩,
    Nat.two_pow_pos 63, sized⟩
  · rw [directory]
  · rw [AList.lookup_insert]
    rfl
  · intro timestamp htimestamp segment hne
    rw [Map.lookup_insert_eq, if_neg hne]
    exact free timestamp htimestamp segment

theorem rotate_returns
    (running : Running machine initial Fixed groups current locals writer
      buffer first) (works : host.Works)
    (tree : 2 ≤ (machine.components initial.logDirectory).length)
    (listed : host.timestamp ∈ timestamps)
    (opened : Opened (machine.components initial.logDirectory) timestamps
      sizes locals writer first.disk) :
    ∃ next last world, Returns (locals.rotate machine host writer) first next
        world ∧
      next.configuration = locals.configuration ∧
      Opened (machine.components initial.logDirectory) timestamps sizes next
        last world.disk := by
  obtain ⟨done, closed, hfinish, free⟩ := running.closes works opened
  obtain ⟨retained, hretain, free⟩ := free.retain works
    (by rw [running.same.directory]; exact tree)
  obtain ⟨next, last, world, hopen, hsame, -, hopened⟩ :=
    openNext_returns works running.same.directory listed opened.sized free
  exact ⟨next, last, world, returns_bind_iff.mpr ⟨_, _, hfinish,
    returns_bind_iff.mpr ⟨(), _, hretain, hopen⟩⟩, hsame, hopened⟩

theorem writeEntry_returns {chunk : OutputChunk}
    (running : Running machine initial Fixed groups current locals writer
      buffer first) (works : host.Works)
    (room : (entries initial (current ++ [chunk])).length < fileLimit)
    (opened : Opened (machine.components initial.logDirectory) timestamps
      sizes locals writer first.disk) :
    ∃ next last world, Returns (locals.writeEntry machine host
        (encodeEntry initial chunk)) first next world ∧
      Opened (machine.components initial.logDirectory) timestamps sizes next
        last world.disk := by
  rw [entries_append, List.length_append, ← running.bytes] at room
  obtain ⟨disk, hdisk, same⟩ := @writeAll_succeeds machine.zstd first.disk
    buffer (encodeEntry initial chunk) (by rw [running.room]; exact room)
  have hsum : saturatingAdd (2 ^ 64) writer.bytes
      (encodeEntry initial chunk).length < fileLimit := by
    unfold fileLimit at room
    rw [saturatingAdd_of_lt (by omega)]
    exact room
  unfold WriterLocals.writeEntry SegmentWriter.write
  rw [opened.active]
  dsimp only
  rw [running.active]
  exact ⟨_, _, _, returns_bind_iff.mpr ⟨_, _, returns_bind_iff.mpr
    ⟨(), _, performAll_returns works hdisk, returns_pure_iff.mpr ⟨rfl, rfl⟩⟩,
    returns_pure_iff.mpr ⟨rfl, rfl⟩⟩, rfl, opened.only.congr same, hsum,
    opened.sized⟩

theorem flush_returns
    (running : Running machine initial Fixed groups current locals writer
      buffer first) (works : host.Works)
    (opened : Opened (machine.components initial.logDirectory) timestamps
      sizes locals writer first.disk) :
    ∃ flushed world, Returns (writer.flush machine host) first flushed world ∧
      Opened (machine.components initial.logDirectory) timestamps sizes
        { locals with writer := some flushed } flushed world.disk := by
  obtain ⟨disk, hdisk, same⟩ := @flushBuf_succeeds machine.zstd first.disk
    buffer (running.room ▸ opened.room)
  unfold SegmentWriter.flush
  rw [running.active]
  exact ⟨_, _, returns_bind_iff.mpr
    ⟨(), _, performAll_returns works hdisk, returns_pure_iff.mpr ⟨rfl, rfl⟩⟩,
    rfl, opened.only.congr same, opened.room, opened.sized⟩

theorem tick_returns
    (running : Running machine initial Fixed groups current locals writer
      buffer first) (works : host.Works)
    (tree : 2 ≤ (machine.components initial.logDirectory).length)
    (listed : host.timestamp ∈ timestamps)
    (opened : Opened (machine.components initial.logDirectory) timestamps
      sizes locals writer first.disk) :
    ∃ next last world, Returns (locals.tick machine host) first next world ∧
      Opened (machine.components initial.logDirectory) timestamps sizes next
        last world.disk := by
  obtain ⟨flushed, middle, hflush, hopened⟩ := flush_returns running works opened
  obtain ⟨empty, running⟩ := running.flush hflush
  unfold WriterLocals.tick
  rw [opened.active]
  by_cases hrotates : flushed.shouldRotate host 0 locals.configuration
  · have running : Running machine initial Fixed groups current
        { locals with writer := some flushed } flushed empty middle :=
      { running with same := running.same, next := running.next }
    obtain ⟨next, last, world, hrotate, -, hlast⟩ :=
      rotate_returns running works tree listed hopened
    refine ⟨next, last, world, returns_bind_iff.mpr ⟨_, _, hflush, ?_⟩, hlast⟩
    rw [if_pos hrotates]
    exact hrotate
  · refine ⟨_, flushed, middle, returns_bind_iff.mpr ⟨_, _, hflush, ?_⟩,
      hopened⟩
    rw [if_neg hrotates]
    exact returns_pure_iff.mpr ⟨rfl, rfl⟩

/-- The chunks fit into one file when they are in one segment. -/
def Fits (initial : ExecutionConfiguration) (sizes : List Nat)
    (chunks : List OutputChunk) : Prop :=
  chunks.length ≤ 1 ∨
      (∃ size ∈ sizes, (entries initial chunks).length ≤ size) →
    (entries initial chunks).length < fileLimit

theorem receiveChunk_returns {chunk : OutputChunk}
    (running : Running machine initial Fixed groups current locals writer
      buffer first) (works : host.Works)
    (tree : 2 ≤ (machine.components initial.logDirectory).length)
    (listed : host.timestamp ∈ timestamps)
    (single : Fits initial sizes [chunk])
    (fits : Fits initial sizes (current ++ [chunk]))
    (opened : Opened (machine.components initial.logDirectory) timestamps
      sizes locals writer first.disk) :
    ∃ next last world, Returns (locals.receiveChunk machine host chunk) first
        next world ∧
      Opened (machine.components initial.logDirectory) timestamps sizes next
        last world.disk := by
  unfold WriterLocals.receiveChunk
  rw [opened.active]
  dsimp only
  rw [running.same.entry]
  by_cases hrotates : writer.shouldRotate host
      (encodeEntry initial chunk).length locals.configuration
  · obtain ⟨middle, last, rotated, hrotate, -, hlast⟩ :=
      rotate_returns running works tree listed opened
    obtain ⟨fresh, empty, hfresh, -, running⟩ := running.rotate hrotate
    obtain rfl := Option.some.inj (hlast.active.symm.trans hfresh)
    obtain ⟨next, last, world, hwrite, hnext⟩ := writeEntry_returns running
      works (single (.inl (by simp))) hlast
    refine ⟨next, last, world, ?_, hnext⟩
    rw [if_pos hrotates]
    exact returns_bind_iff.mpr ⟨_, _, hrotate, hwrite⟩
  · have room : (entries initial (current ++ [chunk])).length <
        fileLimit := by
      refine fits ?_
      have hsingle := single (.inl (by simp))
      have hbytes := opened.room
      simp only [entries, List.flatMap_cons, List.flatMap_nil,
        List.append_nil] at hsingle
      unfold fileLimit at hsingle hbytes
      rcases fits_of_not_rotate (by simpa using hrotates) (by omega) with
        hempty | hsize
      · rw [running.bytes] at hempty
        exact .inl (by simp [eq_nil_of_entries hempty])
      · rw [running.bytes] at hsize
        refine .inr ⟨_, opened.sized, ?_⟩
        rwa [entries_append, List.length_append]
    obtain ⟨next, last, world, hwrite, hnext⟩ :=
      writeEntry_returns running works room opened
    refine ⟨next, last, world, ?_, hnext⟩
    rw [if_neg hrotates]
    exact returns_bind_iff.mpr ⟨_, _, returns_pure_iff.mpr ⟨rfl, rfl⟩, hwrite⟩

/-! ## Policy updates -/

def WriterLocals.openedPath (machine : LogMachine) (host : LogHost)
    (locals : WriterLocals) (writer : SegmentWriter)
    (update : PolicyUpdate) : LogPath :=
  let configuration := applyLoggingPolicy locals.configuration update
  if writer.shouldRotate host 0 configuration then
    machine.components configuration.logDirectory ++
      [openName host.timestamp locals.nextSegment]
  else writer.path

theorem adjustWriter_returns
    (running : Running machine initial Fixed groups current locals writer
      buffer first) (works : host.Works) (listed : host.timestamp ∈ timestamps)
    (opened : Opened (machine.components initial.logDirectory) timestamps
      sizes locals writer first.disk) :
    ∃ next last world, Returns (locals.adjustWriter machine host) first next
        world ∧
      next.configuration = locals.configuration ∧
      last.path = (if writer.shouldRotate host 0 locals.configuration then
          machine.components locals.configuration.logDirectory ++
            [openName host.timestamp locals.nextSegment]
        else writer.path) ∧
      Opened (machine.components initial.logDirectory) timestamps sizes next
        last world.disk := by
  unfold WriterLocals.adjustWriter
  rw [running.same.capture, opened.active]
  dsimp only
  by_cases hrotates : writer.shouldRotate host 0 locals.configuration
  · obtain ⟨done, closed, hfinish, free⟩ := running.closes works opened
    obtain ⟨next, last, world, hopen, hsame, hpath, hopened⟩ :=
      openNext_returns works running.same.directory listed opened.sized free
    refine ⟨next, last, world, ?_, hsame, ?_, hopened⟩
    · rw [if_pos hrotates]
      exact returns_bind_iff.mpr ⟨_, _, hfinish, hopen⟩
    · rw [if_pos hrotates, running.same.directory, hpath]
  · refine ⟨locals, writer, first, ?_, rfl, ?_, opened⟩
    · rw [if_neg hrotates]
      exact returns_pure_iff.mpr ⟨rfl, rfl⟩
    · rw [if_neg hrotates]

theorem changePolicy_returns {update : PolicyUpdate}
    (running : Running machine initial Fixed groups current locals writer
      buffer first) (works : host.Works)
    (tree : 2 ≤ (machine.components initial.logDirectory).length)
    (listed : host.timestamp ∈ timestamps)
    (capture : update.captureLogs = true)
    (size : Fixed → update.segmentSize = initial.segmentSize)
    (sized : update.segmentSize ∈ sizes)
    (spared : locals.openedPath machine host writer update ∉
      (RetentionCall.removals machine
        ⟨applyLoggingPolicy locals.configuration update,
          host.retention⟩).paths)
    (opened : Opened (machine.components initial.logDirectory) timestamps
      sizes locals writer first.disk) :
    ∃ next last world, Returns (locals.changePolicy machine host update) first
        next world ∧
      Opened (machine.components initial.logDirectory) timestamps sizes next
        last world.disk := by
  have updated : Running machine initial Fixed groups current
      { locals with
        configuration := applyLoggingPolicy locals.configuration update }
      writer buffer first :=
    { running with
      same := running.same.update capture size
      next := running.next }
  obtain ⟨next, last, middle, hadjust, hsame, hpath, hnext⟩ :=
    adjustWriter_returns updated works listed
      { opened with active := opened.active, sized := sized }
  have hcapture : next.configuration.captureLogs = true := by
    rw [hsame]
    exact capture
  rw [← show last.path = locals.openedPath machine host writer update from
    hpath] at spared
  rw [← show next.configuration =
    applyLoggingPolicy locals.configuration update from hsame] at spared
  obtain ⟨world, hretain, only⟩ := hnext.only.retain works
    (by rw [hsame]; exact running.same.directory ▸ tree) spared
  refine ⟨next, last, world, returns_bind_iff.mpr ⟨_, _, hadjust, ?_⟩,
    { hnext with only := only }⟩
  rw [if_pos hcapture]
  exact returns_bind_iff.mpr
    ⟨(), _, hretain, returns_pure_iff.mpr ⟨rfl, rfl⟩⟩

end Turns

end Susm.Supervisor
