import Susm.Supervisor.SegmentFinish

/-!
# What the segments hold

Every chunk's entry is in one segment, whole and in the order of arrival.  The
invariant says which chunks are in the segments that were finished and which
are in the open one.
-/

namespace Susm.Supervisor

open Susm.Foundation
open Susm.Foundation.Stateful
open Susm.Protocol

/-! ## The invariant of the loop -/

def entries (configuration : ExecutionConfiguration)
    (chunks : List OutputChunk) : List UInt8 :=
  chunks.flatMap (encodeEntry configuration)

/-- The call finished a segment of this number with these chunks; with a fixed
limit it is small enough or holds one chunk. -/
structure Finished (machine : LogMachine)
    (initial : ExecutionConfiguration) (Fixed : Prop) (number : Nat)
    (call : FinishCall) (chunks : List OutputChunk) : Prop where
  path : ∃ timestamp, call.path =
    machine.components initial.logDirectory ++
      [openName timestamp (number % 2 ^ 32)]
  stores : call.Stores machine (entries initial chunks)
  size : Fixed → chunks.length ≤ 1 ∨
    (entries initial chunks).length ≤ initial.segmentSize

structure Recorded (machine : LogMachine)
    (initial : ExecutionConfiguration) (Fixed : Prop)
    (groups : List (List OutputChunk)) (calls : List FinishCall) : Prop where
  length : calls.length = groups.length
  each : ∀ number call chunks, calls[number]? = some call →
    groups[number]? = some chunks →
      Finished machine initial Fixed number call chunks

/-- What does not change with the logging policy, and the limit if it is
fixed. -/
structure SameStream (initial : ExecutionConfiguration) (Fixed : Prop)
    (configuration : ExecutionConfiguration) : Prop where
  entry : ∀ chunk,
    encodeEntry configuration chunk = encodeEntry initial chunk
  directory : configuration.logDirectory = initial.logDirectory
  capture : configuration.captureLogs = true
  size : Fixed → configuration.segmentSize = initial.segmentSize

structure Between (machine : LogMachine) (initial : ExecutionConfiguration)
    (Fixed : Prop) (groups : List (List OutputChunk))
    (locals : WriterLocals) (world : LogWorld) : Prop where
  same : SameStream initial Fixed locals.configuration
  next : locals.nextSegment = groups.length % 2 ^ 32
  recorded : Recorded machine initial Fixed groups world.finished

/-- While a segment is open and holds the current chunks. -/
structure Running (machine : LogMachine) (initial : ExecutionConfiguration)
    (Fixed : Prop) (groups : List (List OutputChunk))
    (current : List OutputChunk) (locals : WriterLocals)
    (writer : SegmentWriter) (buffer : BufWriter) (world : LogWorld) :
    Prop where
  same : SameStream initial Fixed locals.configuration
  next : locals.nextSegment = (groups.length + 1) % 2 ^ 32
  recorded : Recorded machine initial Fixed groups world.finished
  active : writer.writer = some buffer
  path : buffer.path = writer.path
  name : ∃ timestamp, writer.path =
    machine.components initial.logDirectory ++
      [openName timestamp (groups.length % 2 ^ 32)]
  bytes : writer.bytes = (entries initial current).length
  buffered : Buffered world.disk buffer (entries initial current)
  size : Fixed → current.length ≤ 1 ∨
    (entries initial current).length ≤ initial.segmentSize

section Loop

variable {machine : LogMachine} {host : LogHost}
  {initial : ExecutionConfiguration} {Fixed : Prop}
  {groups : List (List OutputChunk)} {current : List OutputChunk}
  {locals next : WriterLocals} {writer after : SegmentWriter}
  {buffer : BufWriter} {first world : LogWorld}

theorem Recorded.append {calls : List FinishCall} {call : FinishCall}
    (recorded : Recorded machine initial Fixed groups calls)
    (h : Finished machine initial Fixed groups.length call current) :
    Recorded machine initial Fixed (groups ++ [current])
      (calls ++ [call]) where
  length := by simp [recorded.length]
  each number other chunks hother hchunks := by
    have hlength := recorded.length
    rcases lt_trichotomy number groups.length with hlt | rfl | hgt
    · rw [List.getElem?_append_left (by omega)] at hother hchunks
      exact recorded.each number other chunks hother hchunks
    · rw [List.getElem?_append_right (by omega)] at hother hchunks
      simp [hlength] at hother hchunks
      subst hother hchunks
      exact h
    · rw [List.getElem?_eq_none (by simp; omega)] at hchunks
      cases hchunks

theorem returns_finish (hactive : writer.writer = some buffer)
    (h : Returns (writer.finish machine host) first after world) :
    let call : FinishCall := ⟨writer.path, buffer, first.disk⟩
    ∃ disk, first.disk.applyAll machine.zstd (call.ops machine) = .ok disk ∧
      world = { first with
        disk := disk
        finished := first.finished ++ [call] } := by
  unfold SegmentWriter.finish at h
  rw [hactive] at h
  obtain ⟨state, middle, hget, h⟩ := returns_bind_iff.mp h
  obtain ⟨rfl, rfl⟩ := returns_get_iff.mp hget
  obtain ⟨_, recorded, hmodify, h⟩ := returns_bind_iff.mp h
  obtain rfl := returns_modify_iff.mp hmodify
  obtain ⟨_, closed, hops, h⟩ := returns_bind_iff.mp h
  obtain ⟨-, rfl⟩ := returns_pure_iff.mp h
  obtain ⟨disk, hdisk, rfl⟩ := returns_performAll hops
  exact ⟨disk, hdisk, rfl⟩

theorem Running.finish
    (running : Running machine initial Fixed groups current locals writer
      buffer first)
    (h : Returns (writer.finish machine host) first after world) :
    Between machine initial Fixed (groups ++ [current]) locals world := by
  obtain ⟨disk, hdisk, rfl⟩ := returns_finish running.active h
  obtain ⟨timestamp, hname⟩ := running.name
  have names : SegmentPath machine writer.path := by
    rw [hname]
    exact segmentPath machine _ timestamp _
  refine ⟨running.same, ?_, running.recorded.append ⟨⟨timestamp, hname⟩, ?_,
    running.size⟩⟩
  · rw [running.next, List.length_append, List.length_singleton]
  · exact FinishCall.stores names running.path running.buffered hdisk

theorem returns_retain {configuration : ExecutionConfiguration} {done : Unit}
    (h : Returns (retain machine host configuration) first done world) :
    ∃ paths : List LogPath, world.finished = first.finished ∧
      world.disk = paths.foldl (fun disk path => disk.erase path)
        first.disk := by
  have hworld := (congrArg Prod.snd h).symm
  subst hworld
  exact ⟨_, rfl, rfl⟩

theorem Between.retain {configuration : ExecutionConfiguration} {done : Unit}
    (between : Between machine initial Fixed groups locals first)
    (h : Returns (retain machine host configuration) first done world) :
    Between machine initial Fixed groups locals world := by
  obtain ⟨paths, hfinished, -⟩ := returns_retain h
  exact ⟨between.same, between.next, by rw [hfinished]; exact between.recorded⟩

theorem lookup_foldl_erase {disk : Disk} {paths : List LogPath}
    {path : LogPath} {content : List UInt8}
    (h : (paths.foldl (fun disk path => disk.erase path) disk).lookup path =
      some content) : disk.lookup path = some content := by
  induction paths generalizing disk with
  | nil => exact h
  | cons other paths ih =>
      have hrest := ih h
      rw [Map.lookup_erase_eq] at hrest
      split at hrest
      · cases hrest
      · exact hrest

/-- Retention may remove the file, but does not change what is in it. -/
theorem Running.retain {configuration : ExecutionConfiguration} {done : Unit}
    (running : Running machine initial Fixed groups current locals writer
      buffer first)
    (h : Returns (retain machine host configuration) first done world) :
    Running machine initial Fixed groups current locals writer buffer
      world := by
  obtain ⟨paths, hfinished, hdisk⟩ := returns_retain h
  refine { running with
    recorded := by rw [hfinished]; exact running.recorded
    buffered := { running.buffered with content := ?_ } }
  intro content hcontent
  rw [hdisk] at hcontent
  exact running.buffered.content content (lookup_foldl_erase hcontent)

theorem Between.openNext
    (between : Between machine initial Fixed groups locals first)
    (h : Returns (locals.openNext machine host) first next world) :
    ∃ writer buffer, next.writer = some writer ∧
      next.configuration = locals.configuration ∧
      Running machine initial Fixed groups [] next writer buffer world := by
  obtain ⟨writer, opened, hopen, h⟩ := returns_bind_iff.mp h
  obtain ⟨rfl, rfl⟩ := returns_pure_iff.mp h
  obtain ⟨_, created, hperform, h⟩ := returns_bind_iff.mp hopen
  obtain ⟨rfl, rfl⟩ := returns_pure_iff.mp h
  obtain ⟨disk, hdisk, rfl⟩ := returns_perform hperform
  rw [Disk.apply] at hdisk
  split at hdisk
  · cases hdisk
  cases hdisk
  refine ⟨_, _, rfl, rfl, {
    same := between.same
    next := by simp [between.next]
    recorded := between.recorded
    active := rfl
    path := rfl
    name := ⟨host.timestamp, ?_⟩
    bytes := rfl
    buffered := ?_
    size := fun _ => .inl (Nat.zero_le 1) }⟩
  · rw [between.same.directory, between.next]
  · refine ⟨rfl, Nat.two_pow_pos 63, Nat.zero_le _, ?_⟩
    intro content hcontent
    rw [AList.lookup_insert] at hcontent
    cases hcontent
    rfl

theorem entries_append (chunk : OutputChunk) :
    entries initial (current ++ [chunk]) =
      entries initial current ++ encodeEntry initial chunk := by
  simp [entries]

theorem eq_nil_of_entries (h : (entries initial current).length = 0) :
    current = [] := by
  cases current with
  | nil => rfl
  | cons chunk current => simp [entries, encodeEntry] at h

theorem Buffered.length_lt {disk : Disk} {bytes : List UInt8}
    (buffered : Buffered disk buffer bytes) : bytes.length < 2 ^ 64 := by
  have hlength := buffered.length
  have hbounded := buffered.bounded
  have hsmall := buffered.small
  unfold fileLimit at hbounded
  unfold BufWriter.capacity at hsmall
  omega

theorem fits_of_not_rotate {configuration : ExecutionConfiguration}
    {size : Nat} (hrotate : writer.shouldRotate host size configuration = false)
    (hsum : writer.bytes + size < 2 ^ 64) :
    writer.bytes = 0 ∨ writer.bytes + size ≤ configuration.segmentSize := by
  unfold SegmentWriter.shouldRotate at hrotate
  rw [saturatingAdd_of_lt hsum] at hrotate
  simp at hrotate
  omega

theorem Running.writeEntry {chunk : OutputChunk}
    (running : Running machine initial Fixed groups current locals writer
      buffer first) (hwriter : locals.writer = some writer)
    (hrotate : current = [] ∨ writer.shouldRotate host
      (encodeEntry initial chunk).length locals.configuration = false)
    (h : Returns (locals.writeEntry machine host (encodeEntry initial chunk))
      first next world) :
    ∃ writer buffer, next.writer = some writer ∧
      Running machine initial Fixed groups (current ++ [chunk]) next writer
        buffer world := by
  unfold WriterLocals.writeEntry at h
  rw [hwriter] at h
  obtain ⟨written, middle, hwrite, h⟩ := returns_bind_iff.mp h
  obtain ⟨rfl, rfl⟩ := returns_pure_iff.mp h
  unfold SegmentWriter.write at hwrite
  rw [running.active] at hwrite
  obtain ⟨_, appended, hops, h⟩ := returns_bind_iff.mp hwrite
  obtain ⟨rfl, rfl⟩ := returns_pure_iff.mp h
  obtain ⟨disk, hdisk, rfl⟩ := returns_performAll hops
  have hbuffered := running.buffered.writeAll hdisk
  rw [← entries_append] at hbuffered
  have hlength : (entries initial (current ++ [chunk])).length = _ :=
    congrArg List.length (entries_append chunk)
  rw [List.length_append, ← running.bytes] at hlength
  have hsum := hbuffered.length_lt
  rw [hlength] at hsum
  refine ⟨_, _, rfl, {
    same := running.same
    next := running.next
    recorded := running.recorded
    active := rfl
    path := (writeAll_path buffer _).trans running.path
    name := running.name
    bytes := ?_
    buffered := hbuffered
    size := fun fixed => ?_ }⟩
  · rw [hlength]
    exact saturatingAdd_of_lt hsum
  · rcases hrotate with rfl | hrotate
    · exact .inl (by simp)
    · rcases fits_of_not_rotate hrotate hsum with hempty | hfits
      · rw [running.bytes] at hempty
        exact .inl (by simp [eq_nil_of_entries hempty])
      · rw [running.same.size fixed] at hfits
        exact .inr (by omega)

theorem Running.flush
    (running : Running machine initial Fixed groups current locals writer
      buffer first)
    (h : Returns (writer.flush machine host) first after world) :
    ∃ buffer, Running machine initial Fixed groups current locals after
      buffer world := by
  unfold SegmentWriter.flush at h
  rw [running.active] at h
  obtain ⟨_, flushed, hops, h⟩ := returns_bind_iff.mp h
  obtain ⟨rfl, rfl⟩ := returns_pure_iff.mp h
  obtain ⟨disk, hdisk, rfl⟩ := returns_performAll hops
  exact ⟨_, {
    same := running.same
    next := running.next
    recorded := running.recorded
    active := rfl
    path := (flushBuf_path buffer).trans running.path
    name := running.name
    bytes := running.bytes
    buffered := running.buffered.flushBuf hdisk
    size := running.size }⟩

theorem Running.rotate
    (running : Running machine initial Fixed groups current locals writer
      buffer first)
    (h : Returns (locals.rotate machine host writer) first next world) :
    ∃ writer buffer, next.writer = some writer ∧
      next.configuration = locals.configuration ∧
      Running machine initial Fixed (groups ++ [current]) [] next writer
        buffer world := by
  obtain ⟨_, finished, hfinish, h⟩ := returns_bind_iff.mp h
  obtain ⟨_, retained, hretain, hopen⟩ := returns_bind_iff.mp h
  exact ((running.finish hfinish).retain hretain).openNext hopen

/-- The chunks that have arrived are in the segments, in their order. -/
def Capturing (machine : LogMachine) (initial : ExecutionConfiguration)
    (Fixed : Prop) (arrived : List OutputChunk) (locals : WriterLocals)
    (world : LogWorld) : Prop :=
  ∃ groups current writer buffer, groups.flatten ++ current = arrived ∧
    locals.writer = some writer ∧
    Running machine initial Fixed groups current locals writer buffer world

variable {arrived : List OutputChunk}

theorem Capturing.receiveChunk {chunk : OutputChunk}
    (capturing : Capturing machine initial Fixed arrived locals first)
    (h : Returns (locals.receiveChunk machine host chunk) first next world) :
    Capturing machine initial Fixed (arrived ++ [chunk]) next world := by
  obtain ⟨groups, current, writer, buffer, rfl, hwriter, running⟩ := capturing
  unfold WriterLocals.receiveChunk at h
  rw [hwriter] at h
  dsimp only at h
  rw [running.same.entry] at h
  split at h
  · obtain ⟨middle, rotated, hrotate, hwrite⟩ := returns_bind_iff.mp h
    obtain ⟨fresh, empty, hfresh, -, running⟩ := running.rotate hrotate
    obtain ⟨last, full, hlast, running⟩ :=
      running.writeEntry hfresh (.inl rfl) hwrite
    exact ⟨_, _, last, full, by simp, hlast, running⟩
  · rename_i hrotates
    obtain ⟨_, middle, hpure, hwrite⟩ := returns_bind_iff.mp h
    obtain ⟨rfl, rfl⟩ := returns_pure_iff.mp hpure
    obtain ⟨last, full, hlast, running⟩ := running.writeEntry hwriter
      (.inr (by simpa using hrotates)) hwrite
    exact ⟨_, _, last, full, by simp, hlast, running⟩

theorem Capturing.tick
    (capturing : Capturing machine initial Fixed arrived locals first)
    (h : Returns (locals.tick machine host) first next world) :
    Capturing machine initial Fixed arrived next world := by
  obtain ⟨groups, current, writer, buffer, rfl, hwriter, running⟩ := capturing
  unfold WriterLocals.tick at h
  rw [hwriter] at h
  obtain ⟨flushed, middle, hflush, h⟩ := returns_bind_iff.mp h
  obtain ⟨empty, running⟩ := running.flush hflush
  split at h
  · obtain ⟨fresh, empty, hfresh, -, running⟩ := running.rotate h
    exact ⟨_, [], fresh, empty, by simp, hfresh, running⟩
  · obtain ⟨rfl, rfl⟩ := returns_pure_iff.mp h
    exact ⟨groups, current, flushed, empty, rfl, rfl,
      { running with same := running.same, next := running.next }⟩

theorem SameStream.update {configuration : ExecutionConfiguration}
    {update : PolicyUpdate} (same : SameStream initial Fixed configuration)
    (capture : update.captureLogs = true)
    (size : Fixed → update.segmentSize = initial.segmentSize) :
    SameStream initial Fixed (applyLoggingPolicy configuration update) where
  entry := same.entry
  directory := same.directory
  capture := capture
  size := size

theorem Capturing.adjustWriter
    (capturing : Capturing machine initial Fixed arrived locals first)
    (h : Returns (locals.adjustWriter machine host) first next world) :
    Capturing machine initial Fixed arrived next world := by
  obtain ⟨groups, current, writer, buffer, rfl, hwriter, running⟩ := capturing
  unfold WriterLocals.adjustWriter at h
  rw [running.same.capture, hwriter] at h
  dsimp only at h
  split at h
  · obtain ⟨_, finished, hfinish, hopen⟩ := returns_bind_iff.mp h
    obtain ⟨fresh, empty, hfresh, -, running⟩ :=
      (running.finish hfinish).openNext hopen
    exact ⟨_, [], fresh, empty, by simp, hfresh, running⟩
  · obtain ⟨rfl, rfl⟩ := returns_pure_iff.mp h
    exact ⟨groups, current, writer, buffer, rfl, hwriter, running⟩

theorem Capturing.changePolicy {update : PolicyUpdate}
    (capturing : Capturing machine initial Fixed arrived locals first)
    (capture : update.captureLogs = true)
    (size : Fixed → update.segmentSize = initial.segmentSize)
    (h : Returns (locals.changePolicy machine host update) first next world) :
    Capturing machine initial Fixed arrived next world := by
  obtain ⟨groups, current, writer, buffer, harrived, hwriter, running⟩ :=
    capturing
  obtain ⟨adjusted, middle, hadjust, h⟩ := returns_bind_iff.mp h
  have hupdated : Capturing machine initial Fixed arrived
      { locals with
        configuration := applyLoggingPolicy locals.configuration update }
      first :=
    ⟨groups, current, writer, buffer, harrived, hwriter,
      { running with
        same := running.same.update capture size
        next := running.next }⟩
  obtain ⟨groups, current, writer, buffer, harrived, hwriter, running⟩ :=
    hupdated.adjustWriter hadjust
  rw [running.same.capture, if_pos rfl] at h
  obtain ⟨_, retained, hretain, h⟩ := returns_bind_iff.mp h
  obtain ⟨rfl, rfl⟩ := returns_pure_iff.mp h
  exact ⟨groups, current, writer, buffer, harrived, hwriter,
    running.retain hretain⟩

/-- What arrives with a turn. -/
def WriterEvent.chunks : WriterEvent → List OutputChunk
  | .chunk received => [received]
  | .tick | .policyChanged _ | .policyClosed => []

def WriterEvent.Keeps (initial : ExecutionConfiguration) (Fixed : Prop) :
    WriterEvent → Prop
  | .policyChanged (some update) =>
      update.captureLogs = true ∧
        (Fixed → update.segmentSize = initial.segmentSize)
  | _ => True

theorem Capturing.handle {event : WriterEvent}
    (capturing : Capturing machine initial Fixed arrived locals first)
    (keeps : event.Keeps initial Fixed)
    (h : Returns (locals.handle machine host event) first next world) :
    Capturing machine initial Fixed (arrived ++ event.chunks) next world := by
  cases event with
  | chunk chunk => exact capturing.receiveChunk h
  | tick =>
      rw [WriterEvent.chunks, List.append_nil]
      exact capturing.tick h
  | policyChanged update =>
      rw [WriterEvent.chunks, List.append_nil]
      cases update with
      | none =>
          obtain ⟨rfl, rfl⟩ := returns_pure_iff.mp h
          exact capturing
      | some update =>
          rw [WriterLocals.handle] at h
          split at h
          · exact capturing.changePolicy keeps.1 keeps.2 h
          · obtain ⟨rfl, rfl⟩ := returns_pure_iff.mp h
            exact capturing
  | policyClosed =>
      rw [WriterEvent.chunks, List.append_nil]
      obtain ⟨rfl, rfl⟩ := returns_pure_iff.mp h
      obtain ⟨groups, current, writer, buffer, harrived, hwriter, running⟩ :=
        capturing
      exact ⟨groups, current, writer, buffer, harrived, hwriter,
        { running with same := running.same, next := running.next }⟩

theorem capturing_start (capture : initial.captureLogs = true)
    (fresh : first.finished = [])
    (h : Returns (WriterLocals.start machine host initial) first next world) :
    Capturing machine initial Fixed [] next world := by
  unfold WriterLocals.start at h
  rw [capture] at h
  dsimp only at h
  rw [if_pos rfl] at h
  obtain ⟨_, created, hcreate, hopen⟩ := returns_bind_iff.mp h
  obtain ⟨disk, -, rfl⟩ := returns_perform hcreate
  have between : Between machine initial Fixed [] ⟨initial, 0, none, true⟩
      { first with disk := disk } := by
    refine ⟨⟨fun _ => rfl, rfl, capture, fun _ => rfl⟩, rfl, ?_, ?_⟩
    · simp [fresh]
    · simp
  obtain ⟨writer, buffer, hwriter, -, running⟩ := between.openNext hopen
  exact ⟨[], [], writer, buffer, rfl, hwriter, running⟩

theorem capturing_afterTurns {turns : List (WriterEvent × LogHost)}
    (capture : initial.captureLogs = true) (fresh : first.finished = [])
    (keeps : ∀ turn ∈ turns, turn.1.Keeps initial Fixed)
    (h : Returns (afterTurns machine initial host turns) first next world) :
    Capturing machine initial Fixed
      (turns.flatMap fun turn => turn.1.chunks) next world := by
  obtain ⟨start, started, hstart, hturns⟩ := returns_bind_iff.mp h
  have hfirst : Capturing machine initial Fixed [] start started :=
    capturing_start capture fresh hstart
  refine returns_foldlM (fun before locals world =>
    Capturing machine initial Fixed
      (before.flatMap fun turn => turn.1.chunks) locals world)
    ?_ [] hfirst hturns
  intro before turn hturn locals next first last capturing hhandle
  have hnext := capturing.handle (keeps turn hturn) hhandle
  simpa using hnext

theorem Capturing.close {done : Unit}
    (capturing : Capturing machine initial Fixed arrived locals first)
    (h : Returns (locals.close machine host) first done world) :
    ∃ groups, groups.flatten = arrived ∧
      Recorded machine initial Fixed groups world.finished := by
  obtain ⟨groups, current, writer, buffer, rfl, hwriter, running⟩ := capturing
  unfold WriterLocals.close at h
  rw [hwriter] at h
  obtain ⟨_, finished, hfinish, hretain⟩ := returns_bind_iff.mp h
  exact ⟨groups ++ [current], by simp,
    ((running.finish hfinish).retain hretain).recorded⟩

end Loop

/-! ## Whole runs -/

/-- Every update leaves capturing on. -/
def KeepsCapturing (turns : List (WriterEvent × LogHost)) : Prop :=
  ∀ turn ∈ turns, ∀ update, turn.1 = .policyChanged (some update) →
    update.captureLogs = true

def SizeUnchanged (configuration : ExecutionConfiguration)
    (turns : List (WriterEvent × LogHost)) : Prop :=
  ∀ turn ∈ turns, ∀ update, turn.1 = .policyChanged (some update) →
    update.segmentSize = configuration.segmentSize

/-- The chunks in groups, one for each segment that was finished, in the order
of the segments. -/
structure Segmented (machine : LogMachine)
    (configuration : ExecutionConfiguration) (Unchanged : Prop)
    (chunks : List OutputChunk) (calls : List FinishCall)
    (groups : List (List OutputChunk)) : Prop where
  order : groups.flatten = chunks
  length : calls.length = groups.length
  stores : ∀ (place : Nat) call group, calls[place]? = some call →
    groups[place]? = some group →
      call.Stores machine (entries configuration group)
  flushed : ∀ (place : Nat) call group, calls[place]? = some call →
    groups[place]? = some group → call.writer.buffer = [] →
      ∀ count, ∃ disk, call.disk.applyAll machine.zstd
          ((call.ops machine).take count) = .ok disk ∧
        Present machine call.path (entries configuration group) disk
  small : Unchanged → ∀ group ∈ groups, group.length ≤ 1 ∨
    (entries configuration group).length ≤ configuration.segmentSize
  numbers : calls.map (fun call => segmentNumber call.path) =
    (List.range calls.length).map fun place => some (place % 2 ^ 32)
  increasing : calls.length ≤ 2 ^ 32 →
    calls.map (fun call => segmentNumber call.path) =
      (List.range calls.length).map some

section Whole

variable {machine : LogMachine} {configuration : ExecutionConfiguration}
  {Unchanged : Prop} {groups : List (List OutputChunk)}
  {calls : List FinishCall}

theorem Recorded.at (recorded : Recorded machine configuration Unchanged
      groups calls) {place : Nat} (h : place < calls.length) :
    ∃ group, groups[place]? = some group ∧
      Finished machine configuration Unchanged place calls[place] group := by
  have hgroup : place < groups.length := recorded.length ▸ h
  exact ⟨groups[place], List.getElem?_eq_getElem hgroup,
    recorded.each place _ _ (List.getElem?_eq_getElem h)
      (List.getElem?_eq_getElem hgroup)⟩

theorem Recorded.numbers
    (recorded : Recorded machine configuration Unchanged groups calls) :
    calls.map (fun call => segmentNumber call.path) =
      (List.range calls.length).map fun place => some (place % 2 ^ 32) := by
  refine List.ext_getElem (by simp) fun place hplace _ => ?_
  rw [List.length_map] at hplace
  obtain ⟨group, -, finished⟩ := recorded.at hplace
  obtain ⟨timestamp, hpath⟩ := finished.path
  rw [List.getElem_map, List.getElem_map, List.getElem_range, hpath]
  exact segmentNumber_open _ timestamp (Nat.mod_lt _ (Nat.two_pow_pos 32))

theorem Recorded.segmented
    (recorded : Recorded machine configuration Unchanged groups calls) :
    Segmented machine configuration Unchanged groups.flatten calls groups where
  order := rfl
  length := recorded.length
  stores place call group hcall hgroup :=
    (recorded.each place call group hcall hgroup).stores
  flushed place call group hcall hgroup hempty count := by
    refine (recorded.each place call group hcall hgroup).stores count ?_
    rw [BufWriter.flushBuf, if_pos hempty]
    exact Nat.zero_le count
  small unchanged group hgroup := by
    obtain ⟨place, hplace⟩ := List.mem_iff_getElem?.mp hgroup
    obtain ⟨hlength, -⟩ := List.getElem?_eq_some_iff.mp hplace
    rw [← recorded.length] at hlength
    obtain ⟨other, hother, finished⟩ := recorded.at hlength
    rw [hplace] at hother
    obtain rfl := Option.some.inj hother
    exact finished.size unchanged
  numbers := recorded.numbers
  increasing hcount := by
    rw [recorded.numbers]
    refine List.map_congr_left fun place hplace => ?_
    rw [Nat.mod_eq_of_lt]
    exact (List.mem_range.mp hplace).trans_le hcount

end Whole

section Runs

variable {machine : LogMachine} {configuration : ExecutionConfiguration}
  {first last : LogHost} {turns : List (WriterEvent × LogHost)}
  {before after : LogWorld} {done : Unit}

theorem KeepsCapturing.keeps (keeps : KeepsCapturing turns) :
    ∀ turn ∈ turns,
      turn.1.Keeps configuration (SizeUnchanged configuration turns) := by
  intro turn hturn
  unfold WriterEvent.Keeps
  split
  · rename_i update hupdate
    exact ⟨keeps turn hturn update hupdate,
      fun unchanged => unchanged turn hturn update hupdate⟩
  · trivial

theorem recorded_of_runWriter (capture : configuration.captureLogs = true)
    (keeps : KeepsCapturing turns) (fresh : before.finished = [])
    (h : Returns (runWriter machine configuration first turns last) before
      done after) :
    ∃ groups, groups.flatten = turns.flatMap (fun turn => turn.1.chunks) ∧
      Recorded machine configuration (SizeUnchanged configuration turns)
        groups after.finished := by
  obtain ⟨locals, middle, hturns, hclose⟩ := returns_bind_iff.mp h
  exact (capturing_afterTurns capture fresh keeps.keeps hturns).close hclose

end Runs

end Susm.Supervisor
