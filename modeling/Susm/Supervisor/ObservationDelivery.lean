import Susm.Foundation.Numbered
import Susm.Supervisor.ControllerLink
import Susm.Supervisor.JournalDurability
import Susm.Supervisor.ObservationSequence

/-!
# Delivery of observations

Every connection sends the observations that follow the cursor it was welcomed
with, one after the other, and the controller applies the observations of the
journal in order, each once.  The invariant compares the four places where
observations wait with the journal: the live channel is a suffix of it, what a
replay has left and what a connection has sent are prefixes of what follows a
cursor, and what a connection has not been read of is a suffix of what it sent.
-/

namespace Susm.Supervisor

open Susm.Foundation
open Susm.Protocol
open Susm.Controller

/-! ## Consecutive pieces of a list -/

section Pieces

universe u

variable {Item : Type u} {sent items more : List Item} {item : Item}
  {cursor : Nat}

theorem prefix_drop_append (h : sent <+: items.drop cursor)
    (hcursor : cursor ≤ items.length) :
    sent <+: (items ++ more).drop cursor := by
  rw [List.drop_append_of_le_length hcursor]
  exact h.trans (List.prefix_append _ _)

theorem length_le_of_prefix_drop (h : sent <+: items.drop cursor)
    (hcursor : cursor ≤ items.length) :
    cursor + sent.length ≤ items.length := by
  have hlength := h.length_le
  rw [List.length_drop] at hlength
  omega

theorem prefix_drop_concat (h : sent <+: items.drop cursor)
    (hnext : item :: more <+: items.drop (cursor + sent.length)) :
    sent ++ [item] <+: items.drop cursor ∧
      more <+: items.drop (cursor + (sent ++ [item]).length) := by
  obtain ⟨rest, hrest⟩ := h
  have hdrop : items.drop (cursor + sent.length) = rest := by
    rw [← List.drop_drop, ← hrest, List.drop_left]
  rw [hdrop] at hnext
  obtain ⟨last, rfl⟩ := hnext
  have hsent : items.drop cursor = sent ++ [item] ++ (more ++ last) := by
    rw [← hrest]
    simp
  refine ⟨⟨more ++ last, hsent.symm⟩, ⟨last, ?_⟩⟩
  rw [← List.drop_drop, hsent, List.drop_left]

theorem prefix_drop_of_suffix (h : item :: more <:+ items) :
    item :: more <+: items.drop (items.length - (item :: more).length) := by
  refine ⟨[], ?_⟩
  rw [List.append_nil]
  exact List.suffix_iff_eq_drop.mp h

theorem number_of_prefix_drop {number : Item → Nat}
    (numbered : Numbered number 0 items)
    (h : item :: more <+: items.drop cursor) : number item = cursor + 1 := by
  obtain ⟨rest, hrest⟩ := h
  have hcursor : cursor ≤ items.length := by
    by_contra hlt
    rw [List.drop_eq_nil_of_le (by omega)] at hrest
    simp at hrest
  have hnumbers := numbered.drop hcursor
  rw [← hrest, List.cons_append, Numbered.cons_iff, Nat.zero_add] at hnumbers
  exact hnumbers.1

end Pieces

namespace LinkWorld

variable {codec : FrameCodec} {executionId : String}
  {world next : LinkWorld}

/-! ## Appending to the journal -/

theorem append_some {record : RuntimeRecord}
    (h : world.append codec record = some next) :
    ∃ bytes, world.bytes.length + 8 ≤ bytes.length ∧
      bytes.length < fileLimit ∧
      next =
        { world with
          bytes := bytes
          journal :=
            { world.journal with
              frames := world.journal.frames ++
                [RuntimeJournal.frameOf record] } } := by
  unfold append at h
  dsimp only at h
  split at h
  · cases h
  rename_i hresult
  cases h
  unfold RuntimeJournal.append at hresult ⊢
  dsimp only at hresult ⊢
  split at hresult
  · cases hresult
  rename_i hpayload
  split at hresult
  · cases hresult
  rename_i hlength
  split at hresult
  · cases hresult
  rename_i hfinalized
  split at hresult
  · cases hresult
  rename_i hroom
  rw [if_neg hpayload, if_neg hlength, if_neg hfinalized, if_neg hroom]
  refine ⟨_, ?_, ?_, rfl⟩
  · simp only [List.length_append, RuntimeJournal.encodeFrame, length_leBytes]
    omega
  · rw [List.length_append]
    omega

theorem observations_append (world : LinkWorld) (frame : RuntimeFrame)
    (bytes : List UInt8) :
    observations
        { world with
          bytes := bytes
          journal :=
            { world.journal with
              frames := world.journal.frames ++ [frame] } } =
      world.observations ++
        match frame.record with
        | some (.observation observation) => [observation]
        | _ => [] := by
  obtain ⟨format, _ | checkpoint | observation | acknowledgement⟩ := frame <;>
    simp [observations]

theorem observationsAfter_eq (world : LinkWorld) (cursor : Nat) :
    world.journal.observationsAfter cursor =
      world.observations.filter
        (fun observation => cursor < observation.sequence) := by
  unfold RuntimeJournal.observationsAfter observations
  rw [List.filter_filterMap]
  congr 1
  funext frame
  obtain ⟨format, _ | checkpoint | observation | acknowledgement⟩ := frame
  · rfl
  · rfl
  · by_cases h : cursor < observation.sequence <;> simp [h, Option.filter]
  · rfl

theorem lastSequence_eq (world : LinkWorld)
    (numbered : Numbered RuntimeObservation.sequence 0 world.observations) :
    world.journal.recovery.lastSequence = world.observations.length := by
  have hsequences : observationSequences world.journal.frames =
      world.observations.map RuntimeObservation.sequence := by
    unfold observationSequences observations
    rw [List.map_filterMap]
    congr 1
    funext frame
    obtain ⟨format, _ | checkpoint | observation | acknowledgement⟩ := frame <;>
      rfl
  change (observationSequences world.journal.frames).foldl max 0 = _
  rw [hsequences, numbered, foldl_max_range']

/-! ## The invariant -/

structure StreamAgrees (observations : List RuntimeObservation) (cursor : Nat)
    (stream : Connection) : Prop where
  welcome : stream.committedSequence ≤ observations.length
  sent : stream.sent <+: observations.drop stream.committedSequence
  inbound : stream.inbound <:+ stream.sent
  read : stream.isOpen = true →
    stream.committedSequence + stream.sent.length ≤
      cursor + stream.inbound.length
  closed : stream.isOpen = false → stream.inbound = []

/-- The cursor of a connection and how much it has sent. -/
def progress (world : LinkWorld) (connection : Nat) : Option (Nat × Nat) :=
  world.connections[connection]?.map fun stream =>
    (stream.committedSequence, stream.sent.length)

/-- The link has sent up to `sentSequence` on the connection. -/
def HasSent (world : LinkWorld) (connection sentSequence : Nat) : Prop :=
  ∃ cursor count, world.progress connection = some (cursor, count) ∧
    sentSequence = cursor + count

def LinkAgrees (world : LinkWorld) : Prop :=
  match world.link with
  | .welcomed connection _ | .acknowledged connection =>
      ∃ cursor, world.progress connection = some (cursor, 0)
  | .replaying connection sentSequence remaining =>
      world.HasSent connection sentSequence ∧
        remaining <+: world.observations.drop sentSequence
  | .live connection sentSequence => world.HasSent connection sentSequence
  | _ => True

/-- The number up to which the link sends without the live channel. -/
def reach : LinkState → Option Nat
  | .replaying _ sentSequence remaining =>
      some (sentSequence + remaining.length)
  | .live _ sentSequence => some sentSequence
  | _ => none

/-- What has been journaled and not been received from the live channel. -/
def waiting (world : LinkWorld) : List RuntimeObservation :=
  world.liveObservations ++ world.unsent.toList

structure Delivering (executionId : String) (world : LinkWorld) : Prop where
  room : 8 * world.journal.frames.length ≤ world.bytes.length ∧
    world.bytes.length < fileLimit
  numbered : Numbered RuntimeObservation.sequence 0 world.observations
  sequence : world.sequence = world.observations.length
  waiting : world.waiting <:+ world.observations
  reached : ∀ sentSequence, reach world.link = some sentSequence →
    world.observations.length ≤ sentSequence + world.waiting.length
  link : world.LinkAgrees
  cursor : committed executionId world.database = some world.applied.length
  applied : world.applied <+: world.observations
  streams : ∀ (index : Nat) (stream : Connection),
    world.connections[index]? = some stream →
      StreamAgrees world.observations world.applied.length stream

theorem observations_length_le (world : LinkWorld) :
    world.observations.length ≤ world.journal.frames.length :=
  List.length_filterMap_le _ _

theorem Fresh.delivering (fresh : Fresh executionId world) :
    Delivering executionId world where
  room := by
    rw [fresh.bytes, fresh.frames]
    exact ⟨Nat.le_refl 0, by decide⟩
  numbered := by
    simp [observations, fresh.frames, Numbered.nil]
  sequence := by simp [observations, fresh.frames, fresh.sequence]
  waiting := by
    simp [LinkWorld.waiting, fresh.unsent, fresh.liveObservations]
  reached := by simp [fresh.link, reach]
  link := by simp [LinkAgrees, fresh.link]
  cursor := by simpa [fresh.applied] using fresh.row
  applied := by simp [fresh.applied]
  streams := by simp [fresh.connections]

/-! ## The streams -/

namespace StreamAgrees

variable {items : List RuntimeObservation} {cursor : Nat} {stream : Connection}

theorem grow (agrees : StreamAgrees items cursor stream)
    (more : List RuntimeObservation) :
    StreamAgrees (items ++ more) cursor stream where
  welcome := by
    have := agrees.welcome
    rw [List.length_append]
    omega
  sent := prefix_drop_append agrees.sent agrees.welcome
  inbound := agrees.inbound
  read := agrees.read
  closed := agrees.closed

theorem advance (agrees : StreamAgrees items cursor stream) {later : Nat}
    (h : cursor ≤ later) : StreamAgrees items later stream where
  welcome := agrees.welcome
  sent := agrees.sent
  inbound := agrees.inbound
  read := fun isOpen => by
    have := agrees.read isOpen
    omega
  closed := agrees.closed

theorem close (agrees : StreamAgrees items cursor stream) :
    StreamAgrees items cursor stream.close where
  welcome := agrees.welcome
  sent := agrees.sent
  inbound := List.nil_suffix
  read := fun isOpen => Bool.noConfusion isOpen
  closed := fun _ => rfl

theorem send (agrees : StreamAgrees items cursor stream)
    {observation : RuntimeObservation}
    (h : stream.sent ++ [observation] <+: items.drop stream.committedSequence) :
    StreamAgrees items cursor (stream.send observation) := by
  cases hopen : stream.isOpen with
  | true =>
      refine ⟨agrees.welcome, h, ?_, ?_, ?_⟩
      · obtain ⟨before, hbefore⟩ := agrees.inbound
        refine ⟨before, ?_⟩
        simp only [Connection.send, hopen, if_true]
        rw [← List.append_assoc, hbefore]
      · intro _
        have := agrees.read hopen
        simp only [Connection.send, hopen, if_true, List.length_append,
          List.length_singleton]
        omega
      · intro hclosed
        simp [Connection.send, hopen] at hclosed
  | false =>
      have hnil := agrees.closed hopen
      refine ⟨agrees.welcome, h, ?_, ?_, ?_⟩
      · simp [Connection.send, hopen, hnil]
      · intro hstill
        simp [Connection.send, hopen] at hstill
      · intro _
        simp [Connection.send, hopen, hnil]

theorem inbound_prefix (agrees : StreamAgrees items cursor stream) :
    stream.inbound <+: items.drop (stream.committedSequence +
      (stream.sent.length - stream.inbound.length)) := by
  obtain ⟨before, hbefore⟩ := agrees.inbound
  obtain ⟨rest, hrest⟩ := agrees.sent
  have hlength : stream.sent.length - stream.inbound.length =
      before.length := by
    rw [← hbefore, List.length_append]
    omega
  refine ⟨rest, ?_⟩
  rw [hlength, ← List.drop_drop, ← hrest, ← hbefore, List.append_assoc,
    List.drop_left]

end StreamAgrees

/-! ## Steps -/

theorem LinkAgrees.of_progress (agrees : world.LinkAgrees)
    (hlink : next.link = world.link)
    (hprogress : ∀ connection, next.progress connection =
      world.progress connection)
    (hobservations : next.observations = world.observations) :
    next.LinkAgrees := by
  unfold LinkAgrees HasSent at agrees ⊢
  rw [hlink, hobservations]
  simpa only [hprogress] using agrees

theorem progress_modify {change : Connection → Connection}
    (hcursor : ∀ stream, (change stream).committedSequence =
      stream.committedSequence)
    (hsent : ∀ stream, (change stream).sent = stream.sent)
    (index connection : Nat) :
    progress
        { world with
          connections := world.connections.modify index change }
        connection =
      world.progress connection := by
  unfold progress
  dsimp only
  rw [List.getElem?_modify]
  cases world.connections[connection]? with
  | none => rfl
  | some stream =>
      by_cases h : index = connection <;> simp [h, hcursor, hsent]

theorem Delivering.modify (h : Delivering executionId world)
    {change : Connection → Connection} {index : Nat}
    (hcursor : ∀ stream, (change stream).committedSequence =
      stream.committedSequence)
    (hsent : ∀ stream, (change stream).sent = stream.sent)
    (hstream : ∀ stream, world.connections[index]? = some stream →
      StreamAgrees world.observations world.applied.length (change stream)) :
    Delivering executionId
      { world with
        connections := world.connections.modify index change } where
  room := h.room
  numbered := h.numbered
  sequence := h.sequence
  waiting := h.waiting
  reached := h.reached
  link := h.link.of_progress rfl (progress_modify hcursor hsent index) rfl
  cursor := h.cursor
  applied := h.applied
  streams := by
    intro connection stream hstreams
    dsimp only at hstreams
    rw [List.getElem?_modify, Option.map_eq_map,
      Option.map_eq_some_iff] at hstreams
    obtain ⟨old, hold, rfl⟩ := hstreams
    dsimp only
    split
    · subst connection
      exact hstream old hold
    · exact h.streams connection old hold

theorem Delivering.close (h : Delivering executionId world) (index : Nat) :
    Delivering executionId
      { world with
        connections := world.connections.modify index (·.close) } :=
  h.modify (fun _ => rfl) (fun _ => rfl) fun stream hstream =>
    (h.streams index stream hstream).close

/-- A record that is no observation leaves everything but the journal. -/
theorem Delivering.append (h : Delivering executionId world)
    {record : RuntimeRecord}
    (hrecord : ∀ observation, record ≠ .observation observation)
    (happend : world.append codec record = some next) :
    Delivering executionId next := by
  obtain ⟨bytes, hlength, hlimit, rfl⟩ := append_some happend
  have hobservations := observations_append world
    (RuntimeJournal.frameOf record) bytes
  rw [show (match (RuntimeJournal.frameOf record).record with
    | some (.observation observation) => [observation]
    | _ => ([] : List RuntimeObservation)) = [] by
      cases record with
      | observation observation => exact absurd rfl (hrecord observation)
      | checkpoint checkpoint => rfl
      | acknowledgement acknowledgement => rfl,
    List.append_nil] at hobservations
  have hroom := h.room
  refine ⟨?_, ?_, ?_, ?_, ?_, ?_, h.cursor, ?_, ?_⟩
  · simp only [List.length_append, List.length_singleton]
    omega
  · rw [hobservations]
    exact h.numbered
  · rw [hobservations]
    exact h.sequence
  · rw [hobservations]
    exact h.waiting
  · rw [hobservations]
    exact h.reached
  · exact h.link.of_progress rfl (fun _ => rfl) hobservations
  · rw [hobservations]
    exact h.applied
  · rw [hobservations]
    exact h.streams

/-! ### The recorder -/

theorem observe_some {facts : ObservationFacts} {observedUnixMs : Int}
    (h : world.observe codec facts observedUnixMs = some next) :
    ∃ observation : RuntimeObservation, ∃ bytes,
      observation.sequence = saturatingAdd (2 ^ 64) world.sequence 1 ∧
      world.unsent = none ∧ world.bytes.length + 8 ≤ bytes.length ∧
      bytes.length < fileLimit ∧
      next =
        { world with
          bytes := bytes
          journal :=
            { world.journal with
              frames := world.journal.frames ++
                [RuntimeJournal.frameOf (.observation observation)] }
          sequence := observation.sequence
          unsent := some observation } := by
  unfold LinkWorld.observe at h
  dsimp only at h
  split at h
  · cases h
  rename_i hunsent
  obtain ⟨appended, happend, rfl⟩ := Option.map_eq_some_iff.mp h
  obtain ⟨bytes, hlength, hlimit, rfl⟩ := append_some happend
  exact ⟨_, bytes, rfl, by simpa using hunsent, hlength, hlimit, rfl⟩

theorem LinkAgrees.grow (agrees : world.LinkAgrees)
    {observation : RuntimeObservation}
    (hlink : next.link = world.link)
    (hprogress : ∀ connection, next.progress connection =
      world.progress connection)
    (hobservations : next.observations = world.observations ++ [observation])
    (hreach : ∀ connection sentSequence,
      world.HasSent connection sentSequence →
        sentSequence ≤ world.observations.length) :
    next.LinkAgrees := by
  unfold LinkAgrees at agrees ⊢
  unfold HasSent at agrees ⊢
  rw [hlink, hobservations]
  simp only [hprogress]
  split <;> rename_i hstate <;> simp only [hstate] at agrees
  · exact agrees
  · exact agrees
  · exact ⟨agrees.1, prefix_drop_append agrees.2 (hreach _ _ agrees.1)⟩
  · exact agrees
  · trivial

theorem Delivering.hasSent_le (h : Delivering executionId world)
    {connection sentSequence : Nat}
    (sent : world.HasSent connection sentSequence) :
    sentSequence ≤ world.observations.length := by
  obtain ⟨cursor, count, hprogress, rfl⟩ := sent
  obtain ⟨stream, hstream, hcounts⟩ := Option.map_eq_some_iff.mp hprogress
  cases hcounts
  have agrees := h.streams connection stream hstream
  exact length_le_of_prefix_drop agrees.sent agrees.welcome

theorem Delivering.observe (h : Delivering executionId world)
    {facts : ObservationFacts} {observedUnixMs : Int}
    (hobserve : world.observe codec facts observedUnixMs = some next) :
    Delivering executionId next := by
  obtain ⟨observation, bytes, hsequence, hunsent, hlength, hlimit, hnext⟩ :=
    observe_some hobserve
  have hroom := h.room
  have hcount := observations_length_le world
  have hnumber : observation.sequence = world.observations.length + 1 := by
    rw [hsequence, h.sequence]
    apply saturatingAdd_of_lt
    unfold fileLimit at hroom
    omega
  have hobservations :
      next.observations = world.observations ++ [observation] := by
    rw [hnext]
    exact observations_append world _ bytes
  have hlink : next.link = world.link := by rw [hnext]
  have hwaiting : world.waiting = world.liveObservations := by
    simp [LinkWorld.waiting, hunsent]
  have hnextWaiting : next.waiting = world.waiting ++ [observation] := by
    rw [hwaiting, hnext]
    rfl
  refine ⟨?_, ?_, ?_, ?_, ?_, ?_, ?_, ?_, ?_⟩
  · rw [hnext]
    simp only [List.length_append, List.length_singleton]
    omega
  · rw [hobservations]
    exact h.numbered.concat (by omega)
  · rw [hobservations, hnext]
    simpa using hnumber
  · rw [hobservations, hnextWaiting]
    obtain ⟨before, hbefore⟩ := h.waiting
    exact ⟨before, by rw [← List.append_assoc, hbefore]⟩
  · intro sentSequence hreach
    have hreached := h.reached sentSequence (hlink ▸ hreach)
    rw [hobservations, hnextWaiting]
    simp only [List.length_append, List.length_singleton]
    omega
  · refine h.link.grow hlink ?_ hobservations fun _ _ => h.hasSent_le
    rw [hnext]
    exact fun _ => rfl
  · rw [hnext]
    exact h.cursor
  · rw [hobservations, hnext]
    exact h.applied.trans (List.prefix_append _ _)
  · intro index stream hstream
    rw [hnext] at hstream
    rw [hobservations, hnext]
    exact (h.streams index stream hstream).grow _

theorem Delivering.publish (h : Delivering executionId world)
    {observation : RuntimeObservation}
    (hunsent : world.unsent = some observation) :
    Delivering executionId
      { world with
        unsent := none
        liveObservations := world.liveObservations ++ [observation] } := by
  have hwaiting : LinkWorld.waiting
      { world with
        unsent := none
        liveObservations := world.liveObservations ++ [observation] } =
      world.waiting := by
    simp [LinkWorld.waiting, hunsent]
  refine ⟨h.room, h.numbered, h.sequence, ?_, ?_, h.link, h.cursor, h.applied,
    h.streams⟩
  · rw [hwaiting]
    exact h.waiting
  · rw [hwaiting]
    exact h.reached

/-! ### The link -/

theorem Delivering.relink (h : Delivering executionId world)
    {link : LinkState}
    (hreached : ∀ sentSequence, reach link = some sentSequence →
      world.observations.length ≤ sentSequence + world.waiting.length)
    (hlink : LinkAgrees { world with link := link }) :
    Delivering executionId { world with link := link } :=
  ⟨h.room, h.numbered, h.sequence, h.waiting, hreached, hlink, h.cursor,
    h.applied, h.streams⟩

theorem Delivering.attach (h : Delivering executionId world)
    {committedSequence : Nat}
    (hcommitted : committed executionId world.database =
      some committedSequence) :
    Delivering executionId
      { world with
        connections := world.connections ++ [.welcome committedSequence]
        link := .connecting } ∧
    ∀ recoveredSequence, Delivering executionId
      { world with
        connections := world.connections ++ [.welcome committedSequence]
        link := .welcomed world.connections.length recoveredSequence } := by
  have hcursor : committedSequence = world.applied.length := by
    have := hcommitted.symm.trans h.cursor
    simpa using this
  have hbound := h.applied.length_le
  have hstreams : ∀ (index : Nat) (stream : Connection),
      (world.connections ++ [Connection.welcome committedSequence])[index]? =
        some stream →
      StreamAgrees world.observations world.applied.length stream := by
    intro index stream hstream
    rw [List.getElem?_append] at hstream
    split at hstream
    · exact h.streams index stream hstream
    · obtain ⟨-, rfl⟩ : index - world.connections.length = 0 ∧
          Connection.welcome committedSequence = stream := by
        simpa [List.getElem?_singleton] using hstream
      refine ⟨?_, List.nil_prefix, List.nil_suffix, fun _ => ?_, fun _ => rfl⟩
      · simp only [Connection.welcome]
        omega
      · simp only [Connection.welcome, List.length_nil]
        omega
  constructor
  · exact ⟨h.room, h.numbered, h.sequence, h.waiting, by simp [reach],
      trivial, h.cursor, h.applied, hstreams⟩
  · intro recoveredSequence
    refine ⟨h.room, h.numbered, h.sequence, h.waiting, by simp [reach], ?_,
      h.cursor, h.applied, hstreams⟩
    refine ⟨committedSequence, ?_⟩
    simp [progress, Connection.welcome]

theorem Delivering.snapshot (h : Delivering executionId world)
    {connection : Nat} {stream : Connection}
    (hlink : world.link = .acknowledged connection)
    (hstream : world.connections[connection]? = some stream) :
    Delivering executionId
      { world with
        link := .replaying connection stream.committedSequence
          (world.journal.observationsAfter stream.committedSequence) } := by
  have agrees := h.streams connection stream hstream
  have hafter : world.journal.observationsAfter stream.committedSequence =
      world.observations.drop stream.committedSequence := by
    rw [observationsAfter_eq, h.numbered.filter_beyond, Nat.sub_zero]
  have hlast := h.link
  simp only [LinkAgrees, hlink, progress, hstream, Option.map_some,
    Option.some.injEq, Prod.mk.injEq, exists_eq_left'] at hlast
  have hwelcome := agrees.welcome
  refine h.relink ?_ ⟨⟨stream.committedSequence, 0, ?_, rfl⟩, ?_⟩
  · intro sentSequence hreach
    cases hreach
    rw [hafter, List.length_drop]
    omega
  · simp [progress, hstream, hlast]
  · exact hafter ▸ List.prefix_rfl

theorem Delivering.send (h : Delivering executionId world)
    {connection sentSequence : Nat} {observation : RuntimeObservation}
    {more : List RuntimeObservation}
    (sent : world.HasSent connection sentSequence)
    (hnext : observation :: more <+: world.observations.drop sentSequence)
    {link : LinkState}
    (hreached : ∀ number, reach link = some number →
      world.observations.length ≤ number + world.waiting.length)
    (hlink : (world.send connection observation).HasSent connection
        observation.sequence →
      more <+: world.observations.drop observation.sequence →
      LinkAgrees { world.send connection observation with link := link }) :
    Delivering executionId
      { world.send connection observation with link := link } := by
  obtain ⟨cursor, count, hprogress, rfl⟩ := sent
  obtain ⟨stream, hstream, hcounts⟩ := Option.map_eq_some_iff.mp hprogress
  cases hcounts
  have agrees := h.streams connection stream hstream
  have hnumber := number_of_prefix_drop h.numbered hnext
  obtain ⟨hsent, hmore⟩ := prefix_drop_concat agrees.sent hnext
  refine ⟨h.room, h.numbered, h.sequence, h.waiting, hreached, ?_, h.cursor,
    h.applied, ?_⟩
  · refine hlink ⟨stream.committedSequence, stream.sent.length + 1, ?_, ?_⟩ ?_
    · simp [progress, LinkWorld.send, hstream, Connection.send]
    · omega
    · rw [hnumber]
      simpa [Nat.add_assoc] using hmore
  · intro index other hother
    simp only [LinkWorld.send, List.getElem?_modify, Option.map_eq_map,
      Option.map_eq_some_iff] at hother
    obtain ⟨old, hold, rfl⟩ := hother
    split
    · subst index
      cases hstream.symm.trans hold
      exact agrees.send hsent
    · exact h.streams index old hold

theorem Delivering.replay (h : Delivering executionId world)
    {connection sentSequence : Nat} {observation : RuntimeObservation}
    {remaining : List RuntimeObservation}
    (hlink : world.link =
      .replaying connection sentSequence (observation :: remaining)) :
    Delivering executionId
      { world.send connection observation with
        link :=
          .replaying connection observation.sequence remaining } := by
  have agrees := h.link
  simp only [LinkAgrees, hlink] at agrees
  have hnumber := number_of_prefix_drop h.numbered agrees.2
  have hreached := h.reached (sentSequence + (remaining.length + 1)) (by
    simp [hlink, reach])
  refine h.send agrees.1 agrees.2 ?_ fun hsent hmore => ⟨hsent, hmore⟩
  intro number hnumber'
  cases hnumber'
  omega

theorem Delivering.replayed (h : Delivering executionId world)
    {connection sentSequence : Nat}
    (hlink : world.link = .replaying connection sentSequence []) :
    Delivering executionId
      { world with link := .live connection sentSequence } := by
  have agrees := h.link
  simp only [LinkAgrees, hlink] at agrees
  refine h.relink ?_ agrees.1
  intro number hnumber
  cases hnumber
  exact h.reached sentSequence (by simp [hlink, reach])

theorem Delivering.passOver (h : Delivering executionId world)
    {connection sentSequence : Nat} {observation : RuntimeObservation}
    {rest : List RuntimeObservation}
    (hlink : world.link = .live connection sentSequence)
    (hlive : world.liveObservations = observation :: rest)
    (hreached : world.observations.length ≤
      sentSequence + (rest ++ world.unsent.toList).length) :
    Delivering executionId { world with liveObservations := rest } := by
  refine ⟨h.room, h.numbered, h.sequence, ?_, ?_, h.link, h.cursor, h.applied,
    h.streams⟩
  · refine List.IsSuffix.trans ⟨[observation], ?_⟩ h.waiting
    simp [LinkWorld.waiting, hlive]
  · intro number hnumber
    simp only [hlink, reach, Option.some.injEq] at hnumber
    subst number
    exact hreached

theorem Delivering.receive (h : Delivering executionId world)
    {connection sentSequence : Nat} {observation : RuntimeObservation}
    {rest : List RuntimeObservation}
    (hlink : world.link = .live connection sentSequence)
    (hlive : world.liveObservations = observation :: rest) :
    Delivering executionId
      (if observation.sequence ≤ sentSequence then
        { world with liveObservations := rest }
      else
        { LinkWorld.send { world with liveObservations := rest } connection
            observation with
          link := .live connection observation.sequence }) := by
  have agrees := h.link
  simp only [LinkAgrees, hlink] at agrees
  have hle := h.hasSent_le agrees
  have hreached := h.reached sentSequence (by simp [hlink, reach])
  have hwaiting : world.waiting =
      observation :: (rest ++ world.unsent.toList) := by
    simp [LinkWorld.waiting, hlive]
  have hsuffix := hwaiting ▸ h.waiting
  have hposition := prefix_drop_of_suffix hsuffix
  have hnumber := number_of_prefix_drop h.numbered hposition
  have hlength := hsuffix.length_le
  rw [hwaiting, List.length_cons] at hreached
  rw [List.length_cons] at hposition hnumber hlength
  split
  · exact h.passOver hlink hlive (by omega)
  · -- The channel starts right behind what has been sent.
    have hsent : sentSequence =
        world.observations.length -
          ((rest ++ world.unsent.toList).length + 1) := by omega
    have hpassed : Delivering executionId
        { world with liveObservations := rest, link := .connecting } := by
      refine ⟨h.room, h.numbered, h.sequence, ?_, by simp [reach], trivial,
        h.cursor, h.applied, h.streams⟩
      refine List.IsSuffix.trans ⟨[observation], ?_⟩ h.waiting
      simp [LinkWorld.waiting, hlive]
    have hnext : observation :: (rest ++ world.unsent.toList) <+:
        world.observations.drop sentSequence := hsent ▸ hposition
    refine hpassed.send agrees hnext ?_ fun hsent _ => hsent
    intro number hnumber'
    cases hnumber'
    simp only [LinkWorld.waiting]
    change world.observations.length ≤ _
    omega

/-! ### The controller -/

theorem Delivering.record (h : Delivering executionId world)
    {connection : Nat} {update : ObservationUpdate} {stored : Bool}
    (hrecord : world.record executionId connection update stored =
      some next) :
    Delivering executionId next := by
  unfold LinkWorld.record at hrecord
  split at hrecord
  · cases hrecord
  rename_i stream hstream
  split at hrecord
  · cases hrecord
  rename_i observation rest hinbound
  dsimp only at hrecord
  split at hrecord
  rotate_left
  · cases hrecord
    exact h.close connection
  split at hrecord
  · cases hrecord
    exact h.close connection
  rename_i committed database hcommit
  cases hrecord
  have agrees := h.streams connection stream hstream
  have hopen : stream.isOpen = true := by
    by_contra hclosed
    have hnil := agrees.closed (by simpa using hclosed)
    rw [hinbound] at hnil
    cases hnil
  have hread := agrees.read hopen
  have hposition := agrees.inbound_prefix
  have hsuffix := agrees.inbound.length_le
  rw [hinbound, List.length_cons] at hread hsuffix hposition
  have hnumber := number_of_prefix_drop h.numbered hposition
  obtain ⟨row, hrow, hcases⟩ := Database.commitObservation_ok hcommit
  have hcursor : row.committedSequence = world.applied.length := by
    have := h.cursor
    simpa [LinkWorld.committed, Database.getExecution, hrow] using this
  have hkeep : ∀ later, world.applied.length ≤ later →
      observation.sequence ≤ later →
      StreamAgrees world.observations later stream.read := by
    intro later hlater hobserved
    refine ⟨agrees.welcome, agrees.sent,
      (List.tail_suffix _).trans agrees.inbound, fun _ => ?_, fun hclosed => ?_⟩
    · simp only [Connection.read, hinbound, List.tail_cons]
      omega
    · simp [Connection.read, hopen] at hclosed
  rcases hcases with ⟨rfl, rfl, hle⟩ | ⟨rfl, hnext, rfl⟩
  · refine h.modify (fun _ => rfl) (fun _ => rfl) fun other hother => ?_
    cases hstream.symm.trans hother
    exact hkeep _ (Nat.le_refl _) (by omega)
  · -- The observation read is the one behind those applied.
    have happlied : world.applied ++ [observation] <+:
        world.observations := by
      have hstart : world.applied <+: world.observations.drop 0 := by
        simpa using h.applied
      have hfirst : observation :: rest <+:
          world.observations.drop (0 + world.applied.length) := by
        rw [Nat.zero_add, ← hcursor,
          show row.committedSequence = stream.committedSequence +
            (stream.sent.length - (rest.length + 1)) by omega]
        exact hposition
      simpa using (prefix_drop_concat hstart hfirst).1
    have hadvanced : Delivering executionId
        { world with
          database :=
            { world.database with
              executions := world.database.executions.insert executionId
                (Database.observed row observation.sequence update)
              workloads := Database.observedWorkloads
                world.database.workloads row.workloadId update }
          applied := world.applied ++ [observation] } := by
      refine ⟨h.room, h.numbered, h.sequence, h.waiting, h.reached, h.link, ?_,
        happlied, fun index other hother => ?_⟩
      · have hobserved : (Database.observed row observation.sequence
            update).committedSequence = observation.sequence := by
          cases update <;> rfl
        simp only [LinkWorld.committed, Database.getExecution,
          AList.lookup_insert, Option.map_some, hobserved, List.length_append,
          List.length_singleton]
        rw [hnext, hcursor]
      · refine (h.streams index other hother).advance ?_
        simp
    refine hadvanced.modify (fun _ => rfl) (fun _ => rfl)
      fun other hother => ?_
    cases hstream.symm.trans hother
    refine hkeep _ ?_ ?_
    · simp
    · simp only [List.length_append, List.length_singleton]
      omega

theorem Delivering.closeAll (h : Delivering executionId world) :
    Delivering executionId
      { world with connections := world.connections.map (·.close) } := by
  refine ⟨h.room, h.numbered, h.sequence, h.waiting, h.reached, ?_, h.cursor,
    h.applied, fun index stream hstream => ?_⟩
  · refine h.link.of_progress rfl (fun connection => ?_) rfl
    simp only [progress, List.getElem?_map]
    cases world.connections[connection]? <;> rfl
  · rw [List.getElem?_map, Option.map_eq_some_iff] at hstream
    obtain ⟨old, hold, rfl⟩ := hstream
    exact (h.streams index old hold).close

theorem Delivering.replaced (h : Delivering executionId world) :
    Delivering executionId
      { world with
        sequence := world.journal.recovery.lastSequence
        unsent := none
        liveObservations := []
        link := .connecting } :=
  ⟨h.room, h.numbered, lastSequence_eq world h.numbered, List.nil_suffix,
    by simp [reach], trivial, h.cursor, h.applied, h.streams⟩

/-! ## Runs -/

theorem step_delivering (h : Delivering executionId world) {event : LinkEvent}
    (moved : step codec executionId world event = some next) :
    Delivering executionId next := by
  cases event with
  | observe facts observedUnixMs => exact h.observe moved
  | publish =>
      obtain ⟨observation, hunsent, rfl⟩ := Option.map_eq_some_iff.mp moved
      exact h.publish hunsent
  | checkpoint checkpoint => exact h.append (by simp) moved
  | hello =>
      simp only [step] at moved
      split at moved
      · cases moved
        exact h.relink (by simp [reach]) trivial
      · cases moved
  | attach welcomeArrives =>
      simp only [step] at moved
      split at moved
      · rename_i recoveredSequence committedSequence hlink hcommitted
        cases moved
        obtain ⟨hlost, hwelcomed⟩ := h.attach hcommitted
        cases welcomeArrives with
        | false => exact hlost
        | true => exact hwelcomed recoveredSequence
      · cases moved
  | attachFailed =>
      simp only [step] at moved
      split at moved
      · cases moved
        exact h.relink (by simp [reach]) trivial
      · cases moved
  | acknowledgeWelcome =>
      simp only [step] at moved
      split at moved
      · rename_i connection recoveredSequence hlink
        obtain ⟨stream, hstream, moved⟩ := Option.bind_eq_some_iff.mp moved
        have agrees := h.link
        simp only [LinkAgrees, hlink] at agrees
        have hacknowledged : Delivering executionId
            { world with link := .acknowledged connection } :=
          h.relink (by simp [reach]) agrees
        split at moved
        · exact hacknowledged.append (by simp) moved
        · cases moved
          exact hacknowledged
      · cases moved
  | snapshot =>
      simp only [step] at moved
      split at moved
      · rename_i connection hlink
        obtain ⟨stream, hstream, rfl⟩ := Option.map_eq_some_iff.mp moved
        exact h.snapshot hlink hstream
      · cases moved
  | replay =>
      simp only [step] at moved
      split at moved
      · rename_i connection sentSequence observation remaining hlink
        cases moved
        exact h.replay hlink
      · cases moved
  | replayed =>
      simp only [step] at moved
      split at moved
      · rename_i connection sentSequence hlink
        cases moved
        exact h.replayed hlink
      · cases moved
  | receive =>
      simp only [step] at moved
      split at moved
      · rename_i connection sentSequence observation rest hlink hlive
        have hreceived := h.receive hlink hlive
        split at moved <;> rename_i hsequence <;> cases moved
        · rwa [if_pos hsequence] at hreceived
        · rwa [if_neg hsequence] at hreceived
      · cases moved
  | acknowledgement committedSequence =>
      simp only [step] at moved
      split at moved
      · exact h.append (by simp) moved
      · cases moved
  | disconnected =>
      simp only [step] at moved
      split at moved
      · cases moved
        exact h.relink (by simp [reach]) trivial
      · cases moved
  | returned =>
      cases moved
      exact h.relink (by simp [reach]) trivial
  | record connection update stored => exact h.record moved
  | closed connection =>
      cases moved
      exact h.close connection
  | controllerExited =>
      cases moved
      exact h.closeAll
  | transaction database =>
      simp only [step] at moved
      split at moved
      · rename_i hcommitted
        cases moved
        exact ⟨h.room, h.numbered, h.sequence, h.waiting, h.reached, h.link,
          hcommitted.trans h.cursor, h.applied, h.streams⟩
      · cases moved
  | replaced =>
      cases moved
      exact h.replaced

/--
Every connection sends the observations that follow the cursor in its welcome,
numbered without a gap or a repeat, and what the controller has applied is a
prefix of the observations in the journal.
-/
theorem observations_delivered_once {first last : LinkWorld}
    (fresh : first.Fresh executionId)
    (run : Runs (step codec executionId) (fun _ _ => True) first last) :
    (∀ connection ∈ last.connections,
      connection.sent <+:
          last.observations.drop connection.committedSequence ∧
        connection.sent.map RuntimeObservation.sequence =
          List.range' (connection.committedSequence + 1)
            connection.sent.length) ∧
      last.applied <+: last.observations ∧
      last.applied.map RuntimeObservation.sequence =
        List.range' 1 last.applied.length ∧
      committed executionId last.database = some last.applied.length := by
  have h : Delivering executionId last :=
    run.invariant (fun _ _ _ h _ moved => step_delivering h moved)
      fresh.delivering
  refine ⟨fun connection hconnection => ?_, h.applied, ?_, h.cursor⟩
  · obtain ⟨index, hindex⟩ := List.getElem?_of_mem hconnection
    have agrees := h.streams index connection hindex
    refine ⟨agrees.sent, ?_⟩
    obtain ⟨rest, hrest⟩ := agrees.sent
    have hnumbers := h.numbered.drop agrees.welcome
    rw [← hrest, Numbered.append_iff, Nat.zero_add] at hnumbers
    exact hnumbers.1
  · obtain ⟨rest, hrest⟩ := h.applied
    have hnumbers := h.numbered
    rw [← hrest, Numbered.append_iff] at hnumbers
    exact hnumbers.1

/-! ## A connection that breaks between two observations -/

/-- The Protobuf encoding of the frames of the run below. -/
def startedCodec : FrameCodec where
  encodeToVec frame :=
    match frame.record with
    | some (.observation observation) =>
        [0x08, 0x01, 0x1A, 0x19, 0x08, UInt8.ofNat observation.sequence,
          0x12, 0x0F] ++
        observation.kind.name.toList.map (UInt8.ofNat ·.toNat) ++
        [0x18, UInt8.ofNat observation.attempt,
          0x30, UInt8.ofNat observation.observedUnixMs.toNat,
          0x40, UInt8.ofNat observation.workloadProcessId]
    | some (.acknowledgement acknowledgement) =>
        [0x08, 0x01, 0x22, 0x02, 0x08,
          UInt8.ofNat acknowledgement.committedSequence]
    | _ => []
  decode _ := .error "failed to decode Protobuf message"
  crc32c := JournalWorld.crc32c

def startedFacts : ObservationFacts where
  kind := .attemptStarted
  attempt := 1
  exitCode := none
  detail := ""
  terminal := false
  workloadProcessId := 42

def startedRow : StoredExecution where
  workloadId := "tool"
  state := .launching
  supervisorProcessId := 7
  workloadProcessId := 0
  attempt := 0
  startedUnixMs := 5
  endedUnixMs := 0
  exitCode := none
  error := ""
  snapshot := toolConfiguration
  committedSequence := 0

def startedWorld : LinkWorld where
  bytes := []
  journal := ⟨false, []⟩
  sequence := 0
  unsent := none
  liveObservations := []
  link := .connecting
  connections := []
  database := ⟨none, ∅, AList.singleton "tool-1" startedRow⟩
  applied := []

theorem startedWorld_fresh : startedWorld.Fresh "tool-1" :=
  ⟨rfl, rfl, rfl, rfl, rfl, rfl, rfl, rfl, rfl⟩

/-- The second connection repeats what the first one has not been read of. -/
def brokenConnection : List LinkEvent :=
  [.observe startedFacts 5, .publish, .hello, .attach true,
    .acknowledgeWelcome, .snapshot, .replay, .replayed, .receive,
    .record 0 .acknowledge true, .observe startedFacts 6, .publish, .receive,
    .disconnected, .hello, .attach true, .acknowledgeWelcome, .snapshot,
    .replay, .replayed, .record 1 .acknowledge true,
    .record 0 .acknowledge true]

def reconnectedWorld : LinkWorld :=
  (execute (step startedCodec "tool-1") startedWorld brokenConnection).getD
    startedWorld

theorem observations_delivered_once_reconnected :
    (∀ connection ∈ reconnectedWorld.connections,
      connection.sent <+:
          reconnectedWorld.observations.drop connection.committedSequence ∧
        connection.sent.map RuntimeObservation.sequence =
          List.range' (connection.committedSequence + 1)
            connection.sent.length) ∧
      reconnectedWorld.applied <+: reconnectedWorld.observations ∧
      reconnectedWorld.applied.map RuntimeObservation.sequence =
        List.range' 1 reconnectedWorld.applied.length ∧
      committed "tool-1" reconnectedWorld.database =
        some reconnectedWorld.applied.length :=
  observations_delivered_once startedWorld_fresh
    (execute_getD_runs (by decide +kernel))

example : reconnectedWorld.connections.map (·.sent.length) = [2, 1] ∧
    reconnectedWorld.applied.length = 2 := by decide +kernel

end LinkWorld

end Susm.Supervisor
