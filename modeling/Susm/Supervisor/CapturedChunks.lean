import Mathlib.Data.Nat.ModEq
import Susm.Supervisor.OutputCapture

/-!
# What becomes of captured output

Every byte that is written to a pipe is in a chunk sooner or later, each chunk
has the next number of the counter, and each is sent once.  The channel keeps
the order of the chunks of one pipe.
-/

namespace Susm.Supervisor

open Susm.Foundation

section Lists

variable {stream other : OutputStream} {chunk : OutputChunk}
  {chunks more : List OutputChunk} {result : Sent}
  {sent rest : List (OutputChunk × Sent)}

@[simp] theorem ofStream_append : ofStream stream (chunks ++ more) =
    ofStream stream chunks ++ ofStream stream more :=
  List.filter_append chunks more

theorem ofStream_push (belongs : chunk.stream = stream) :
    ofStream stream (chunks ++ [chunk]) =
      ofStream stream chunks ++ [chunk] := by
  rw [ofStream_append]
  simp [ofStream, belongs]

theorem ofStream_push_other (differ : chunk.stream ≠ stream) :
    ofStream stream (chunks ++ [chunk]) = ofStream stream chunks := by
  rw [ofStream_append]
  simp [ofStream, differ]

@[simp] theorem sentAs_append :
    sentAs result (sent ++ rest) =
      sentAs result sent ++ sentAs result rest := by
  simp [sentAs]

theorem sentAs_single {answer : Sent} : sentAs result [(chunk, answer)] =
    if answer = result then [chunk] else [] := by
  by_cases h : answer = result <;> simp [sentAs, h]

theorem sentAs_push :
    sentAs result (sent ++ [(chunk, result)]) =
      sentAs result sent ++ [chunk] := by
  rw [sentAs_append, sentAs_single, if_pos rfl]

theorem sentAs_push_other {answer : Sent} (differ : answer ≠ result) :
    sentAs result (sent ++ [(chunk, answer)]) = sentAs result sent := by
  rw [sentAs_append, sentAs_single, if_neg differ, List.append_nil]

theorem ofStream_perm (chunks : List OutputChunk) :
    (ofStream .stdout chunks ++ ofStream .stderr chunks).Perm chunks := by
  have split := List.filter_append_perm
    (fun chunk : OutputChunk => chunk.stream = .stdout) chunks
  have others : ofStream .stderr chunks =
      chunks.filter fun chunk => !decide (chunk.stream = .stdout) := by
    refine List.filter_congr fun chunk _ => ?_
    cases chunk.stream <;> rfl
  rwa [← others] at split

theorem sentAs_perm (sent : List (OutputChunk × Sent)) :
    (sentAs .accepted sent ++
      (sentAs .full sent ++ sentAs .closed sent)).Perm (sent.map Prod.fst) := by
  induction sent with
  | nil => exact .nil
  | cons entry sent ih =>
      obtain ⟨chunk, result⟩ := entry
      have split (answer : Sent) : sentAs answer ((chunk, result) :: sent) =
          (if result = answer then [chunk] else []) ++ sentAs answer sent := by
        rw [← sentAs_single, ← sentAs_append, List.singleton_append]
      rw [split, split, split, List.map_cons]
      cases result with
      | accepted => exact ih.cons chunk
      | full => exact List.perm_middle.trans (ih.cons chunk)
      | closed =>
          refine .trans ?_ (ih.cons chunk)
          refine (List.perm_append_left_iff _).mpr ?_ |>.trans List.perm_middle
          exact List.perm_middle

end Lists

/--
For one pipe: what was written to it is in chunks, in the hand of its task or
still in the pipe, and its chunks were sent in the order in which they were
read.
-/
structure Drain.Kept (taken : List OutputChunk)
    (sent : List (OutputChunk × Sent)) (stream : OutputStream)
    (drain : Drain) : Prop where
  content : (ofStream stream taken).flatMap OutputChunk.bytes ++
    drain.holding ++ drain.pending = drain.written
  order : ofStream stream (sent.map Prod.fst) ++ drain.inFlight =
    ofStream stream taken
  belongs : ∀ chunk ∈ drain.inFlight, chunk.stream = stream
  atEnd : drain.phase = .returned true →
    drain.closed = true ∧ drain.pending = []

/--
The chunks carry the numbers behind the first one; what was accepted has been
received or waits, in this order, as long as the writer has not gone; a chunk
that the channel did not take was behind as many others as it holds.
-/
structure Capture.Kept (first : Nat) (capture : Capture) : Prop where
  counter : capture.sequence ≡ first + capture.taken.length [MOD 2 ^ 64]
  numbers : capture.taken.map OutputChunk.sequence =
    (List.range capture.taken.length).map fun place =>
      (first + place + 1) % 2 ^ 64
  drains : ∀ stream, (capture.drains stream).Kept capture.taken capture.sent
    stream
  delivered : sentAs .accepted capture.sent =
    capture.received ++ capture.queue ++ capture.abandoned
  alive : capture.connected = true →
    capture.abandoned = [] ∧ sentAs .closed capture.sent = []
  room : capture.queue.length ≤ outputQueueChunks
  full : ∀ before chunk after,
    capture.sent = before ++ (chunk, .full) :: after →
    ∃ count ≤ capture.received.length,
      (sentAs .accepted before).length = count + outputQueueChunks

namespace Drain.Kept

variable {taken : List OutputChunk} {sent : List (OutputChunk × Sent)}
  {stream other : OutputStream} {drain : Drain} {chunk : OutputChunk}

theorem fresh : Drain.fresh.Kept [] [] stream :=
  ⟨rfl, rfl, by simp [Drain.fresh, Drain.inFlight], nofun⟩

theorem numbered (kept : drain.Kept taken sent other)
    (differ : chunk.stream ≠ other) :
    drain.Kept (taken ++ [chunk]) sent other := by
  have same : ofStream other (taken ++ [chunk]) = ofStream other taken :=
    ofStream_push_other differ
  exact ⟨same ▸ kept.content, same ▸ kept.order, kept.belongs, kept.atEnd⟩

theorem numbers {piece : ReadPiece} (kept : drain.Kept taken sent stream)
    (phase : drain.phase = .numbering piece) (belongs : chunk.stream = stream)
    (bytes : chunk.bytes = piece.bytes) :
    (drain.enter (.sending chunk)).Kept (taken ++ [chunk]) sent stream := by
  obtain ⟨content, order, -, -⟩ := kept
  simp only [Drain.holding, phase] at content
  simp only [Drain.inFlight, phase, List.append_nil] at order
  refine ⟨?_, ?_, ?_, nofun⟩
  · rw [ofStream_push belongs]
    simpa [Drain.enter, Drain.holding, bytes] using content
  · rw [ofStream_push belongs, order]
    rfl
  · simpa [Drain.enter, Drain.inFlight] using belongs

/-- The chunk of this pipe has been sent, in whatever way. -/
theorem sends (kept : drain.Kept taken sent stream)
    (phase : drain.phase = .sending chunk) (result : Sent) :
    (drain.enter .reading).Kept taken (sent ++ [(chunk, result)]) stream := by
  have belongs : chunk.stream = stream :=
    kept.belongs chunk (by simp [Drain.inFlight, phase])
  obtain ⟨content, order, -, -⟩ := kept
  simp only [Drain.holding, phase] at content
  simp only [Drain.inFlight, phase] at order
  refine ⟨content, ?_, by simp [Drain.enter, Drain.inFlight], nofun⟩
  rw [← order, List.map_append, List.map_singleton, ofStream_push belongs]
  simp [Drain.enter, Drain.inFlight]

theorem sentOther {result : Sent} (kept : drain.Kept taken sent other)
    (differ : chunk.stream ≠ other) :
    drain.Kept taken (sent ++ [(chunk, result)]) other := by
  have same : ofStream other ((sent ++ [(chunk, result)]).map Prod.fst) =
      ofStream other (sent.map Prod.fst) := by
    rw [List.map_append, List.map_singleton, ofStream_push_other differ]
  exact ⟨kept.content, same ▸ kept.order, kept.belongs, kept.atEnd⟩

end Drain.Kept

namespace Capture

variable {first : Nat} {capture next : Capture} {stream : OutputStream}
  {drain : Drain} {chunk : OutputChunk}

theorem forall_setDrain {Holds : OutputStream → Drain → Prop}
    (changed : Holds stream drain)
    (same : ∀ other, other ≠ stream → Holds other (capture.drains other))
    (other : OutputStream) :
    Holds other ((capture.setDrain stream drain).drains other) :=
  (Function.forall_update_iff capture.drains Holds).mpr ⟨changed, same⟩ other

theorem start_kept : (start first).Kept first where
  counter := Nat.ModEq.refl _
  numbers := rfl
  drains _ := .fresh
  delivered := rfl
  alive _ := ⟨rfl, rfl⟩
  room := Nat.zero_le _
  full before chunk after same := by
    rw [start] at same
    simp at same

theorem Kept.changed (kept : capture.Kept first)
    (changed : drain.Kept capture.taken capture.sent stream) :
    (capture.setDrain stream drain).Kept first :=
  { kept with
    drains := forall_setDrain changed fun other _ => kept.drains other }

theorem Kept.writes (kept : capture.Kept first) (bytes : List UInt8)
    (alive : ∀ atEnd, (capture.drains stream).phase ≠ .returned atEnd) :
    (capture.setDrain stream
      { capture.drains stream with
        written := (capture.drains stream).written ++ bytes
        pending := (capture.drains stream).pending ++ bytes }).Kept first := by
  have before := kept.drains stream
  refine kept.changed ⟨?_, before.order, before.belongs, fun returned =>
    absurd returned (alive true)⟩
  rw [← before.content]
  simp [Drain.holding]

theorem Kept.closes (kept : capture.Kept first) (stream : OutputStream) :
    (capture.setDrain stream
      { capture.drains stream with closed := true }).Kept first := by
  have before := kept.drains stream
  exact kept.changed ⟨before.content, before.order, before.belongs,
    fun returned => ⟨rfl, (before.atEnd returned).2⟩⟩

theorem Kept.returns (kept : capture.Kept first)
    (phase : (capture.drains stream).phase = .reading) :
    (capture.setDrain stream ((capture.drains stream).enter (.returned
      ((capture.drains stream).closed ∧
        (capture.drains stream).pending = [])))).Kept first := by
  obtain ⟨content, order, -, -⟩ := kept.drains stream
  simp only [Drain.holding, phase] at content
  simp only [Drain.inFlight, phase] at order
  refine kept.changed ⟨content, order, by simp [Drain.enter, Drain.inFlight],
    fun returned => ?_⟩
  have atEnd := DrainPhase.returned.inj returned
  exact of_decide_eq_true atEnd

theorem Kept.reads {piece : ReadPiece} {rest : List UInt8}
    (kept : capture.Kept first)
    (phase : (capture.drains stream).phase = .reading)
    (pending : (capture.drains stream).pending = piece.bytes ++ rest) :
    (capture.setDrain stream
      { capture.drains stream with
        pending := rest
        phase := .numbering piece }).Kept first := by
  obtain ⟨content, order, -, -⟩ := kept.drains stream
  simp only [Drain.holding, phase, pending, List.append_nil] at content
  simp only [Drain.inFlight, phase] at order
  refine kept.changed ⟨?_, order, by simp [Drain.inFlight], nofun⟩
  rw [← content]
  simp [Drain.holding]

theorem Kept.numbers_next {piece : ReadPiece} (kept : capture.Kept first)
    (phase : (capture.drains stream).phase = .numbering piece)
    (belongs : chunk.stream = stream)
    (next : chunk.sequence = (capture.sequence + 1) % 2 ^ 64)
    (bytes : chunk.bytes = piece.bytes) :
    Kept first
      { capture.setDrain stream
          ((capture.drains stream).enter (.sending chunk)) with
        sequence := chunk.sequence
        taken := capture.taken ++ [chunk] } := by
  have number : chunk.sequence =
      (first + capture.taken.length + 1) % 2 ^ 64 :=
    next.trans (kept.counter.add_right 1)
  refine { kept with counter := ?_, numbers := ?_, drains := ?_ }
  · change chunk.sequence ≡
      first + (capture.taken ++ [chunk]).length [MOD 2 ^ 64]
    rw [number, List.length_append, List.length_singleton, ← Nat.add_assoc]
    exact Nat.mod_modEq _ _
  · change (capture.taken ++ [chunk]).map OutputChunk.sequence =
      (List.range (capture.taken ++ [chunk]).length).map _
    rw [List.map_append, kept.numbers, List.length_append,
      List.length_singleton, List.range_succ, List.map_append,
      List.map_singleton, List.map_singleton, number]
  · exact forall_setDrain ((kept.drains stream).numbers phase belongs bytes)
      fun other differ =>
        (kept.drains other).numbered (belongs.trans_ne differ.symm)

theorem Kept.drains_sent (kept : capture.Kept first)
    (phase : (capture.drains stream).phase = .sending chunk) (result : Sent)
    (other : OutputStream) :
    ((capture.setDrain stream
      ((capture.drains stream).enter .reading)).drains other).Kept
        capture.taken (capture.sent ++ [(chunk, result)]) other := by
  have belongs : chunk.stream = stream :=
    (kept.drains stream).belongs chunk (by simp [Drain.inFlight, phase])
  exact forall_setDrain ((kept.drains stream).sends phase result)
    (fun other differ =>
      (kept.drains other).sentOther (belongs.trans_ne differ.symm)) other

theorem Kept.full_sent {result : Sent} (kept : capture.Kept first)
    (last : result = .full → ∃ count ≤ capture.received.length,
      (sentAs .accepted capture.sent).length = count + outputQueueChunks)
    (before : List (OutputChunk × Sent)) (refused : OutputChunk)
    (after : List (OutputChunk × Sent))
    (same : capture.sent ++ [(chunk, result)] =
      before ++ (refused, .full) :: after) :
    ∃ count ≤ capture.received.length,
      (sentAs .accepted before).length = count + outputQueueChunks := by
  rcases List.eq_nil_or_concat after with rfl | ⟨earlier, entry, rfl⟩
  · obtain ⟨rfl, tail⟩ := List.append_inj' same rfl
    cases tail
    exact last rfl
  · rw [List.concat_eq_append, ← List.cons_append, ← List.append_assoc] at same
    obtain ⟨split, -⟩ := List.append_inj' same rfl
    exact kept.full before refused earlier split

theorem Kept.sends (kept : capture.Kept first)
    (phase : (capture.drains stream).phase = .sending chunk)
    (connected : capture.connected = true)
    (room : capture.queue.length < outputQueueChunks) :
    Kept first
      { capture.setDrain stream
          ((capture.drains stream).enter .reading) with
        queue := capture.queue ++ [chunk]
        sent := capture.sent ++ [(chunk, .accepted)] } := by
  obtain ⟨left, closed⟩ := kept.alive connected
  refine { kept with
    drains := kept.drains_sent phase .accepted, delivered := ?_, alive := ?_,
    room := ?_, full := kept.full_sent nofun }
  · have delivered := kept.delivered
    rw [left, List.append_nil] at delivered
    change sentAs .accepted (capture.sent ++ [(chunk, .accepted)]) =
      capture.received ++ (capture.queue ++ [chunk]) ++ capture.abandoned
    rw [sentAs_push, delivered, left, List.append_nil, List.append_assoc]
  · refine fun _ => ⟨left, ?_⟩
    exact (sentAs_push_other (by decide)).trans closed
  · change (capture.queue ++ [chunk]).length ≤ outputQueueChunks
    rw [List.length_append]
    exact room

theorem Kept.behind (kept : capture.Kept first)
    (full : outputQueueChunks ≤ capture.queue.length)
    (connected : capture.connected = true) :
    (sentAs .accepted capture.sent).length =
      capture.received.length + outputQueueChunks := by
  have room := kept.room
  rw [kept.delivered, (kept.alive connected).1, List.append_nil,
    List.length_append]
  omega

theorem Kept.drops (kept : capture.Kept first)
    (phase : (capture.drains stream).phase = .sending chunk)
    (full : outputQueueChunks ≤ capture.queue.length)
    (connected : capture.connected = true) :
    Kept first
      { capture.setDrain stream
          ((capture.drains stream).enter .reading) with
        sent := capture.sent ++ [(chunk, .full)] } := by
  obtain ⟨left, closed⟩ := kept.alive connected
  have behind : ∃ count ≤ capture.received.length,
      (sentAs .accepted capture.sent).length = count + outputQueueChunks :=
    ⟨_, le_rfl, kept.behind full connected⟩
  refine { kept with
    drains := kept.drains_sent phase .full, delivered := ?_, alive := ?_,
    full := kept.full_sent fun _ => behind }
  · exact (sentAs_push_other (by decide)).trans kept.delivered
  · refine fun _ => ⟨left, ?_⟩
    exact (sentAs_push_other (by decide)).trans closed

theorem Kept.fails (kept : capture.Kept first)
    (phase : (capture.drains stream).phase = .sending chunk)
    (gone : capture.connected = false) :
    Kept first
      { capture.setDrain stream
          ((capture.drains stream).enter .reading) with
        sent := capture.sent ++ [(chunk, .closed)] } := by
  refine { kept with
    drains := kept.drains_sent phase .closed, delivered := ?_, alive := ?_,
    full := kept.full_sent nofun }
  · exact (sentAs_push_other (by decide)).trans kept.delivered
  · intro connected
    change capture.connected = true at connected
    rw [gone] at connected
    cases connected

theorem Kept.receives {queue : List OutputChunk} (kept : capture.Kept first)
    (head : capture.queue = chunk :: queue) :
    Kept first
      { capture with
        queue := queue
        received := capture.received ++ [chunk] } := by
  have room := kept.room
  rw [head, List.length_cons] at room
  refine { kept with delivered := ?_, room := ?_, full := ?_ }
  · rw [kept.delivered, head]
    simp
  · change queue.length ≤ _
    omega
  · intro before refused after same
    obtain ⟨count, few, behind⟩ := kept.full before refused after same
    refine ⟨count, few.trans ?_, behind⟩
    change capture.received.length ≤ (capture.received ++ [chunk]).length
    rw [List.length_append]
    exact Nat.le_add_right _ _

theorem Kept.disconnects (kept : capture.Kept first)
    (connected : capture.connected = true) :
    Kept first
      { capture with
        queue := []
        connected := false
        abandoned := capture.queue } := by
  have left := (kept.alive connected).1
  refine { kept with
    delivered := ?_, alive := nofun, room := Nat.zero_le _ }
  rw [kept.delivered, left]
  simp

theorem Kept.step (kept : capture.Kept first) (step : capture.Step next) :
    next.Kept first := by
  cases step with
  | writes bytes alive => exact kept.writes bytes alive
  | closes stream => exact kept.closes stream
  | returns phase => exact kept.returns phase
  | reads phase pending => exact kept.reads phase pending
  | numbers phase belongs next bytes =>
      exact kept.numbers_next phase belongs next bytes
  | sends phase connected room => exact kept.sends phase connected room
  | drops phase full connected => exact kept.drops phase full connected
  | fails phase gone => exact kept.fails phase gone
  | receives head => exact kept.receives head
  | disconnects connected => exact kept.disconnects connected

/-- The pipes of an attempt have been read for some time. -/
def Reads (first : Nat) (capture : Capture) : Prop :=
  Runs step (fun _ _ => True) (start first) capture

theorem Reads.kept (reads : Reads first capture) : capture.Kept first :=
  reads.invariant (fun _ _ _ kept _ moved => kept.step (step_cases moved))
    start_kept

theorem Kept.taken_perm (kept : capture.Kept first) :
    capture.taken.Perm
      (capture.received ++ capture.queue ++ capture.abandoned ++
        (sentAs .full capture.sent ++ sentAs .closed capture.sent) ++
        ((capture.drains .stdout).inFlight ++
          (capture.drains .stderr).inFlight)) := by
  rw [← kept.delivered]
  refine (ofStream_perm capture.taken).symm.trans ?_
  rw [← (kept.drains .stdout).order, ← (kept.drains .stderr).order]
  refine .trans ?_ ((sentAs_perm capture.sent).symm.append_right _)
  refine .trans ?_ ((ofStream_perm (capture.sent.map Prod.fst)).append_right _)
  rw [List.append_assoc, List.append_assoc]
  refine (List.perm_append_left_iff _).mpr ?_
  rw [← List.append_assoc, ← List.append_assoc]
  exact List.perm_append_comm.append_right _

theorem Kept.numbered (kept : capture.Kept first)
    (fits : first + capture.taken.length < 2 ^ 64) :
    Numbered OutputChunk.sequence first capture.taken := by
  rw [Numbered, kept.numbers, List.range'_eq_map_range]
  refine List.map_congr_left fun place hplace => ?_
  have few := List.mem_range.mp hplace
  rw [Nat.mod_eq_of_lt (by omega)]
  omega

theorem Kept.received_sublist (kept : capture.Kept first)
    (stream : OutputStream) :
    (ofStream stream capture.received).Sublist
      (ofStream stream capture.taken) := by
  have accepted : (ofStream stream capture.received).Sublist
      (ofStream stream (sentAs .accepted capture.sent)) := by
    rw [kept.delivered, List.append_assoc, ofStream_append]
    exact List.sublist_append_left _ _
  have sent : (ofStream stream (sentAs .accepted capture.sent)).Sublist
      (ofStream stream (capture.sent.map Prod.fst)) :=
    (List.filter_sublist.map Prod.fst).filter _
  refine accepted.trans (sent.trans ?_)
  rw [← (kept.drains stream).order]
  exact List.sublist_append_left _ _

theorem Kept.dropped (kept : capture.Kept first) (step : capture.Step next)
    (dropped : sentAs .full next.sent ≠ sentAs .full capture.sent) :
    (sentAs .accepted capture.sent).length =
      capture.received.length + outputQueueChunks := by
  cases step with
  | drops phase full connected => exact kept.behind full connected
  | sends | fails => exact absurd (sentAs_push_other (by decide)) dropped
  | _ => exact absurd rfl dropped

/--
Every byte of a pipe is in its chunks, or its task or the pipe still has it.
The chunks of both pipes have the numbers behind the first one, without a gap,
and each is in one place: with the writer, on the channel, left behind by the
writer, dropped or about to be sent.  The writer receives those of a pipe in
the order in which they were read.  When a chunk is dropped for a full channel,
the writer is behind by exactly as many accepted chunks as it holds.
-/
structure ChunkedOnce (first : Nat) (capture : Capture) : Prop where
  content : ∀ stream,
    (ofStream stream capture.taken).flatMap OutputChunk.bytes ++
      (capture.drains stream).holding ++ (capture.drains stream).pending =
        (capture.drains stream).written
  numbered : Numbered OutputChunk.sequence first capture.taken
  places : capture.taken.Perm
    (capture.received ++ capture.queue ++ capture.abandoned ++
      (sentAs .full capture.sent ++ sentAs .closed capture.sent) ++
      ((capture.drains .stdout).inFlight ++
        (capture.drains .stderr).inFlight))
  ordered : ∀ stream, (ofStream stream capture.received).Sublist
    (ofStream stream capture.taken)
  room : capture.queue.length ≤ outputQueueChunks
  behind : ∀ before chunk after,
    capture.sent = before ++ (chunk, .full) :: after →
      ∃ count ≤ capture.received.length,
        (sentAs .accepted before).length = count + outputQueueChunks
  drops : ∀ event next, capture.step event = some next →
    sentAs .full next.sent ≠ sentAs .full capture.sent →
      (sentAs .accepted capture.sent).length =
        capture.received.length + outputQueueChunks
  alive : capture.connected = true →
    capture.abandoned = [] ∧ sentAs .closed capture.sent = []

theorem chunked_once (reads : Reads first capture)
    (fits : first + capture.taken.length < 2 ^ 64) :
    capture.ChunkedOnce first :=
  have kept := reads.kept
  { content := fun stream => (kept.drains stream).content
    numbered := kept.numbered fits
    places := kept.taken_perm
    ordered := kept.received_sublist
    room := kept.room
    behind := kept.full
    drops := fun _ _ moved => kept.dropped (step_cases moved)
    alive := kept.alive }

/-- Both pipes are written to and read in turns. -/
def helloEvents : List CaptureEvent :=
  [.write .stdout [104, 105], .write .stderr [33], .read .stderr (some 1),
    .read .stdout (some 1), .number .stdout 5, .number .stderr 5,
    .send .stderr, .send .stdout, .receive, .read .stdout (some 1),
    .number .stdout 6, .send .stdout, .receive, .receive, .close .stdout,
    .close .stderr, .read .stdout (some 0), .read .stderr (some 0)]

def helloCapture : Capture :=
  (execute step (start 7) helloEvents).getD (start 7)

theorem helloCapture_reads : Reads 7 helloCapture :=
  execute_getD_runs (by decide +kernel)

theorem chunked_once_hello : helloCapture.ChunkedOnce 7 :=
  chunked_once helloCapture_reads (by decide +kernel)

end Capture

end Susm.Supervisor
