import Susm.Foundation.EventMachine
import Susm.Supervisor.SegmentWriter

/-!
# Buffers and files of a segment

What was written to a segment is in its buffer and its file.  While the segment
is finished, from the flush of the buffer on, all of it is in a file that is
not temporary.
-/

namespace Susm.Supervisor

open Susm.Foundation
open Susm.Foundation.Stateful
open Susm.Protocol

/-! ## Operations -/

section Operations

variable {machine : LogMachine} {host : LogHost} {zstd : Zstd}
  {disk last : Disk} {first world : LogWorld}

@[simp] theorem applyAll_nil : disk.applyAll zstd [] = .ok disk := rfl

theorem applyAll_cons (op : DiskOp) (ops : List DiskOp) :
    disk.applyAll zstd (op :: ops) =
      disk.apply zstd op >>= fun next => next.applyAll zstd ops := by
  rw [Disk.applyAll, List.foldlM_cons]
  rfl

theorem applyAll_append (before after : List DiskOp) :
    disk.applyAll zstd (before ++ after) =
      disk.applyAll zstd before >>= fun next => next.applyAll zstd after := by
  rw [Disk.applyAll, List.foldlM_append]
  rfl

theorem returns_perform {op : DiskOp} {done : Unit}
    (h : Returns (perform machine host op) first done world) :
    ∃ disk, first.disk.apply machine.zstd op = .ok disk ∧
      world = { first with disk := disk } := by
  unfold Returns perform at h
  change (if host.fails op then _ else _) = _ at h
  split at h
  · cases h
  · cases happly : first.disk.apply machine.zstd op with
    | error error =>
        rw [happly] at h
        cases h
    | ok disk =>
        rw [happly] at h
        cases h
        exact ⟨disk, rfl, rfl⟩

theorem returns_performAll {ops : List DiskOp} {done : Unit}
    (h : Returns (performAll machine host ops) first done world) :
    ∃ disk, first.disk.applyAll machine.zstd ops = .ok disk ∧
      world = { first with disk := disk } := by
  induction ops generalizing first with
  | nil =>
      obtain ⟨-, rfl⟩ := returns_pure_iff.mp h
      exact ⟨first.disk, rfl, rfl⟩
  | cons op ops ih =>
      obtain ⟨_, middle, hop, hrest⟩ := returns_bind_iff.mp h
      obtain ⟨next, hnext, rfl⟩ := returns_perform hop
      obtain ⟨disk, hdisk, rfl⟩ := ih hrest
      refine ⟨disk, ?_, rfl⟩
      rw [applyAll_cons, hnext]
      exact hdisk

end Operations

/-! ## Buffers -/

structure Buffered (disk : Disk) (writer : BufWriter) (bytes : List UInt8) :
    Prop where
  length : writer.written + writer.buffer.length = bytes.length
  bounded : writer.written < fileLimit
  small : writer.buffer.length ≤ BufWriter.capacity
  content : ∀ content ∈ disk.lookup writer.path,
    content ++ writer.buffer = bytes

section Buffers

variable {zstd : Zstd} {disk last : Disk} {writer : BufWriter}
  {bytes extra : List UInt8}

theorem apply_appendOp
    (h : disk.apply zstd (writer.appendOp extra) = .ok last) :
    writer.written + extra.length < fileLimit ∧
      last = disk.modify writer.path fun content => content ++ extra := by
  rw [BufWriter.appendOp, Disk.apply] at h
  split at h
  · rename_i hroom
    cases h
    exact ⟨hroom, rfl⟩
  · cases h

theorem Buffered.flushBuf (buffered : Buffered disk writer bytes)
    (h : disk.applyAll zstd writer.flushBuf.1 = .ok last) :
    Buffered last writer.flushBuf.2 bytes := by
  unfold BufWriter.flushBuf at h ⊢
  split at h
  · rename_i hempty
    cases h
    rw [if_pos hempty]
    exact buffered
  · rename_i hpending
    rw [if_neg hpending]
    rw [applyAll_cons] at h
    obtain ⟨next, hnext, hrest⟩ := bind_eq_ok_iff.mp h
    cases hrest
    obtain ⟨hroom, rfl⟩ := apply_appendOp hnext
    refine ⟨by simpa using buffered.length, hroom, Nat.zero_le _, ?_⟩
    intro content hcontent
    rw [Map.lookup_modify, if_pos rfl] at hcontent
    obtain ⟨old, hold, rfl⟩ := Option.map_eq_some_iff.mp hcontent
    simpa using buffered.content old hold

theorem flushBuf_buffer (writer : BufWriter) :
    writer.flushBuf.2.buffer = [] := by
  unfold BufWriter.flushBuf
  split <;> simp [*]

@[simp] theorem flushBuf_path (writer : BufWriter) :
    writer.flushBuf.2.path = writer.path := by
  unfold BufWriter.flushBuf
  split <;> rfl

theorem writeAll_path (writer : BufWriter) (extra : List UInt8) :
    (writer.writeAll extra).2.path = writer.path := by
  unfold BufWriter.writeAll
  dsimp only
  split_ifs <;> simp

theorem Buffered.append (buffered : Buffered disk writer bytes)
    (hempty : writer.buffer = [])
    (h : disk.apply zstd (writer.appendOp extra) = .ok last) :
    Buffered last { writer with written := writer.written + extra.length }
      (bytes ++ extra) := by
  obtain ⟨hroom, rfl⟩ := apply_appendOp h
  have hlength := buffered.length
  refine ⟨?_, hroom, buffered.small, ?_⟩
  · simp only [hempty, List.length_nil, List.length_append] at hlength ⊢
    omega
  · intro content hcontent
    rw [Map.lookup_modify, if_pos rfl] at hcontent
    obtain ⟨old, hold, rfl⟩ := Option.map_eq_some_iff.mp hcontent
    have hcontent := buffered.content old hold
    simp only [hempty, List.append_nil] at hcontent ⊢
    rw [hcontent]

theorem Buffered.fill (buffered : Buffered disk writer bytes)
    (hfits : writer.buffer.length + extra.length ≤ BufWriter.capacity) :
    Buffered disk { writer with buffer := writer.buffer ++ extra }
      (bytes ++ extra) := by
  refine ⟨?_, buffered.bounded, ?_, ?_⟩
  · have hlength := buffered.length
    simp only [List.length_append]
    omega
  · simpa using hfits
  · intro content hcontent
    rw [← buffered.content content hcontent, List.append_assoc]

theorem Buffered.writeAll (buffered : Buffered disk writer bytes)
    (h : disk.applyAll zstd (writer.writeAll extra).1 = .ok last) :
    Buffered last (writer.writeAll extra).2 (bytes ++ extra) := by
  have hsmall := buffered.small
  unfold BufWriter.writeAll BufWriter.spareCapacity at h ⊢
  by_cases hfits : extra.length < BufWriter.capacity - writer.buffer.length
  · rw [if_pos hfits] at h ⊢
    cases h
    exact buffered.fill (by omega)
  rw [if_neg hfits] at h ⊢
  by_cases hflush : extra.length > BufWriter.capacity - writer.buffer.length
  · rw [if_pos hflush] at h ⊢
    by_cases hlarge : extra.length ≥ BufWriter.capacity
    · -- the buffer is flushed, and the bytes go to the file
      simp only [if_pos hlarge] at h ⊢
      rw [applyAll_append] at h
      obtain ⟨middle, hbuffer, hbytes⟩ := bind_eq_ok_iff.mp h
      rw [applyAll_cons] at hbytes
      obtain ⟨next, hnext, hrest⟩ := bind_eq_ok_iff.mp hbytes
      cases hrest
      exact (buffered.flushBuf hbuffer).append (flushBuf_buffer writer) hnext
    · simp only [if_neg hlarge] at h ⊢
      refine (buffered.flushBuf h).fill ?_
      rw [flushBuf_buffer, List.length_nil]
      omega
  · rw [if_neg hflush] at h ⊢
    by_cases hlarge : extra.length ≥ BufWriter.capacity
    · simp only [if_pos hlarge, List.nil_append] at h ⊢
      rw [applyAll_cons] at h
      obtain ⟨next, hnext, hrest⟩ := bind_eq_ok_iff.mp h
      cases hrest
      refine buffered.append (List.length_eq_zero_iff.mp ?_) hnext
      omega
    · simp only [if_neg hlarge] at h ⊢
      cases h
      exact buffered.fill (by omega)

end Buffers

/-! ## Finishing a segment -/

/-- The bytes are in a file that is not temporary. -/
def Present (machine : LogMachine) (path : LogPath) (bytes : List UInt8)
    (disk : Disk) : Prop :=
  disk.lookup path = some bytes ∨
    disk.lookup (finalizedPath path) = some bytes ∨
    ∃ frame, disk.lookup (compressedPath (finalizedPath path)) = some frame ∧
      machine.zstd.decode frame = some bytes

def Disk.Passes (zstd : Zstd) (Holds : Disk → Prop) :
    Disk → List DiskOp → Prop
  | disk, [] => Holds disk
  | disk, op :: ops =>
      Holds disk ∧ ∃ next, disk.apply zstd op = .ok next ∧
        Disk.Passes zstd Holds next ops

/-- From the flush of the buffer to the end of the call the bytes are in a file
that is not temporary. -/
def FinishCall.Stores (machine : LogMachine) (call : FinishCall)
    (bytes : List UInt8) : Prop :=
  ∀ count, call.writer.flushBuf.1.length ≤ count →
    ∃ disk, call.disk.applyAll machine.zstd
        ((call.ops machine).take count) = .ok disk ∧
      Present machine call.path bytes disk

section Finish

variable {machine : LogMachine} {disk last : Disk} {path : LogPath}
  {bytes : List UInt8} {Holds : Disk → Prop} {ops : List DiskOp}

theorem Disk.Passes.take {zstd : Zstd} (passes : disk.Passes zstd Holds ops)
    (count : Nat) :
    ∃ next, disk.applyAll zstd (ops.take count) = .ok next ∧ Holds next := by
  induction ops generalizing disk count with
  | nil => exact ⟨disk, by simp, passes⟩
  | cons op ops ih =>
      obtain ⟨hdisk, next, hnext, hrest⟩ := passes
      cases count with
      | zero => exact ⟨disk, rfl, hdisk⟩
      | succ count =>
          obtain ⟨last, hlast, hholds⟩ := ih hrest count
          refine ⟨last, ?_, hholds⟩
          rw [List.take_succ_cons, applyAll_cons, hnext]
          exact hlast

theorem appendedExtension_ne {directory : LogPath} {name : String}
    {extension : List Char} (hne : extension ≠ []) :
    appendedExtension (directory ++ [name]) extension ≠
      directory ++ [name] := by
  intro heq
  rw [appendedExtension, withName_append] at heq
  have hname := List.singleton_injective (List.append_cancel_left heq)
  have hlength := congrArg (fun name => name.toList.length) hname
  simp at hlength
  exact hne hlength

/-- The name of the segment that is open, and its other names. -/
structure SegmentPath (machine : LogMachine) (path : LogPath) : Prop where
  finalized : finalizedPath path ≠ path
  compressed :
    compressedPath (finalizedPath path) ≠ finalizedPath path
  temporary : temporaryPath machine.processId (finalizedPath path) ≠
    finalizedPath path

theorem segmentPath (machine : LogMachine) (directory : LogPath)
    (timestamp : String) (segment : Nat) :
    SegmentPath machine (directory ++ [openName timestamp segment]) where
  finalized := by
    rw [finalizedPath_open]
    intro heq
    have hname := List.singleton_injective (List.append_cancel_left heq)
    have hlength := congrArg (fun name => name.toList.length) hname
    simp [openName] at hlength
  compressed := by
    rw [finalizedPath_open]
    exact appendedExtension_ne (by decide)
  temporary := by
    rw [finalizedPath_open]
    exact appendedExtension_ne (by simp)

theorem apply_rename {zstd : Zstd} {source : LogPath}
    (h : disk.lookup source = some bytes) (target : LogPath) :
    disk.apply zstd (.rename source target) =
      .ok ((disk.erase source).insert target bytes) := by
  rw [Disk.apply, h]

theorem apply_copyEncode {zstd : Zstd} {source : LogPath}
    (h : disk.lookup source = some bytes) (target : LogPath) :
    disk.apply zstd (.copyEncode source target) =
      .ok (disk.insert target (zstd.encode bytes)) := by
  rw [Disk.apply, h]

theorem apply_openRead {zstd : Zstd} (h : disk.lookup path = some bytes) :
    disk.apply zstd (.openRead path) = .ok disk := by
  rw [Disk.apply, h, Option.isSome_some, if_pos rfl]

theorem apply_removeFile {zstd : Zstd} (h : disk.lookup path = some bytes) :
    disk.apply zstd (.removeFile path) = .ok (disk.erase path) := by
  rw [Disk.apply, h, Option.isSome_some, if_pos rfl]

theorem finalizedOps_pass (names : SegmentPath machine path)
    (h : disk.lookup (finalizedPath path) = some bytes) :
    disk.Passes machine.zstd (Present machine path bytes)
      ((closingOps machine path).drop 2) := by
  obtain ⟨-, hcompressed, htemporary⟩ := names
  have hstays : ∀ (disk : Disk) content,
      disk.lookup (finalizedPath path) = some bytes →
      (disk.insert (temporaryPath machine.processId (finalizedPath path))
        content).lookup (finalizedPath path) = some bytes := by
    intro disk content hdisk
    rw [Map.lookup_insert_eq, if_neg htemporary.symm, hdisk]
  have hcreated := hstays disk [] h
  have hencoded := hstays _ (machine.zstd.encode bytes) hcreated
  have hreplaced : (((((disk.insert (temporaryPath machine.processId
      (finalizedPath path)) []).insert (temporaryPath machine.processId
        (finalizedPath path)) (machine.zstd.encode bytes))).erase
      (temporaryPath machine.processId (finalizedPath path))).insert
      (compressedPath (finalizedPath path))
        (machine.zstd.encode bytes)).lookup (finalizedPath path) =
      some bytes := by
    rw [Map.lookup_insert_eq, if_neg hcompressed.symm, Map.lookup_erase_eq,
      if_neg htemporary.symm, hencoded]
  refine ⟨.inr (.inl h), _, apply_openRead h, .inr (.inl h), _, rfl,
    .inr (.inl hcreated), _, apply_copyEncode hcreated _,
    .inr (.inl hencoded), _, rfl, .inr (.inl hencoded), _,
    apply_rename (AList.lookup_insert _) _, .inr (.inl hreplaced), _,
    apply_removeFile hreplaced, .inr (.inr ⟨machine.zstd.encode bytes, ?_, ?_⟩)⟩
  · rw [Map.lookup_erase_eq, if_neg hcompressed, AList.lookup_insert]
  · exact machine.zstd.decode_encode bytes

/-- Each operation of `finish` leaves the bytes in a file. -/
theorem closingOps_pass (names : SegmentPath machine path)
    (h : disk.lookup path = some bytes) :
    disk.Passes machine.zstd (Present machine path bytes)
      (closingOps machine path) := by
  have hrenamed : ((disk.erase path).insert (finalizedPath path)
      bytes).lookup (finalizedPath path) = some bytes := AList.lookup_insert _
  exact ⟨.inl h, disk, rfl, .inl h, _, apply_rename h _,
    finalizedOps_pass names hrenamed⟩

theorem lookup_of_closed (h : disk.applyAll machine.zstd
    (closingOps machine path) = .ok last) :
    ∃ content, disk.lookup path = some content := by
  unfold closingOps at h
  rw [applyAll_cons] at h
  obtain ⟨synced, hsynced, h⟩ := bind_eq_ok_iff.mp h
  cases hsynced
  rw [applyAll_cons] at h
  obtain ⟨renamed, hrenamed, -⟩ := bind_eq_ok_iff.mp h
  rw [Disk.apply] at hrenamed
  cases hlookup : disk.lookup path with
  | none =>
      rw [hlookup] at hrenamed
      cases hrenamed
  | some content => exact ⟨content, rfl⟩

theorem FinishCall.stores {call : FinishCall}
    (names : SegmentPath machine call.path)
    (hpath : call.writer.path = call.path)
    (buffered : Buffered call.disk call.writer bytes)
    (h : call.disk.applyAll machine.zstd (call.ops machine) = .ok last) :
    call.Stores machine bytes := by
  rw [FinishCall.ops, applyAll_append] at h
  obtain ⟨flushed, hflushed, hclosed⟩ := bind_eq_ok_iff.mp h
  obtain ⟨content, hcontent⟩ := lookup_of_closed hclosed
  have hwhole := (buffered.flushBuf hflushed).content content
    (by rw [flushBuf_path, hpath]; exact hcontent)
  rw [flushBuf_buffer, List.append_nil] at hwhole
  subst hwhole
  intro count hcount
  obtain ⟨disk, hdisk, hpresent⟩ := (closingOps_pass names hcontent).take
    (count - call.writer.flushBuf.1.length)
  refine ⟨disk, ?_, hpresent⟩
  rw [FinishCall.ops, List.take_append, List.take_of_length_le hcount,
    applyAll_append, hflushed]
  exact hdisk

end Finish

end Susm.Supervisor
