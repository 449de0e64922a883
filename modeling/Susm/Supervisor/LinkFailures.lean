import Susm.Supervisor.AttemptWorld
import Susm.Supervisor.JournalDurability
import Susm.Supervisor.LinkLoop

/-!
# Failures of the controller connection

A failed connection takes the link back to connecting, except where the loop
propagates the failure: a stream that breaks before `Welcome`, and a request
channel that is closed while an observation is sent.  As long as no step
propagates one, the link returns only after an acknowledgement of a terminal
observation.
-/

namespace Susm.Supervisor

open Susm.Foundation
open Susm.Protocol

/-! ## What the journal records -/

namespace RuntimeJournal

variable {codec : FrameCodec} {journal : RuntimeJournal}
  {observation : RuntimeObservation}

def Records (journal : RuntimeJournal) (observation : RuntimeObservation) :
    Prop :=
  ∃ frame ∈ journal.frames, frame.record = some (.observation observation)

theorem records_of_mem {sequence : Nat}
    (member : observation ∈ journal.observationsAfter sequence) :
    journal.Records observation := by
  obtain ⟨frame, hframe, hrecord⟩ := List.mem_filterMap.mp member
  refine ⟨frame, hframe, ?_⟩
  split at hrecord
  · rename_i found
    split at hrecord
    · cases hrecord
      exact found
    · cases hrecord
  · cases hrecord

theorem append_frames (bytes : List UInt8) (frame : RuntimeFrame)
    (outcome : WriteOutcome) :
    (journal.append codec bytes frame outcome).journal.frames =
        journal.frames ++ [frame] ∨
      (journal.append codec bytes frame outcome).journal = journal ∧
        ∃ error,
          (journal.append codec bytes frame outcome).result =
            .error error := by
  unfold append
  dsimp only
  split
  · exact .inr ⟨rfl, _, rfl⟩
  split
  · exact .inr ⟨rfl, _, rfl⟩
  split
  · exact .inr ⟨rfl, _, rfl⟩
  split
  · exact .inr ⟨rfl, _, rfl⟩
  cases outcome with
  | synced => exact .inl rfl
  | failed count => exact .inr ⟨rfl, _, rfl⟩

theorem Records.append (recorded : journal.Records observation)
    (bytes : List UInt8) (frame : RuntimeFrame) (outcome : WriteOutcome) :
    (journal.append codec bytes frame outcome).journal.Records observation := by
  obtain ⟨found, hfound, hrecord⟩ := recorded
  rcases @append_frames codec journal bytes frame outcome with
    frames | ⟨same, -⟩
  · exact ⟨found, by simp [frames, hfound], hrecord⟩
  · exact ⟨found, by simpa [same] using hfound, hrecord⟩

theorem records_appended {bytes : List UInt8} {outcome : WriteOutcome}
    (synced : (journal.append codec bytes (frameOf (.observation observation))
      outcome).result = .ok ()) :
    (journal.append codec bytes (frameOf (.observation observation))
      outcome).journal.Records observation := by
  rcases @append_frames codec journal bytes
    (frameOf (.observation observation)) outcome with
    frames | ⟨-, error, failed⟩
  · exact ⟨frameOf (.observation observation), by simp [frames], rfl⟩
  · rw [failed] at synced
    cases synced

def RecordsTerminal (journal : RuntimeJournal) (sequence : Nat) : Prop :=
  ∃ observation, journal.Records observation ∧
    observation.terminal = true ∧ observation.sequence = sequence

end RuntimeJournal

/-! ## Which steps fail -/

def StreamMessage.welcome : StreamMessage → Option Welcome
  | .arrived response => response.welcome
  | _ => none

namespace LinkLoop

def fails (link : LinkLoop) : Event → Bool
  | .connect established => !established
  | .attach accepted => !accepted
  | .hello | .replay | .forward => !link.receiving
  | .welcome message => message.welcome.isNone
  | .respond (.failed _) _ | .respond .ended _ => true
  | _ => false

/-- The failures that `run` hands to its caller. -/
def propagates (link : LinkLoop) : Event → Bool
  | .welcome (.failed _) => true
  | .replay | .forward => !link.receiving
  | _ => false

def journals (setup : LinkSetup) (link : LinkLoop) (committed : Nat)
    (outcome : RuntimeJournal.WriteOutcome) : Bool :=
  (link.journal.append setup.codec link.bytes
    (RuntimeJournal.frameOf (.acknowledgement ⟨committed⟩)) outcome).result.isOk

def supplied (setup : LinkSetup) (link : LinkLoop) : Event → Bool
  | .currentUserSid found => found.isOk
  | .acknowledgeWelcome outcome =>
      match link.point with
      | .welcomed recovery committed =>
          committed ≤ recovery.committedSequence ||
            journals setup link committed outcome
      | _ => true
  | .respond (.arrived response) outcome =>
      response.acknowledgement.all fun acknowledgement =>
        journals setup link acknowledgement.committedSequence outcome
  | _ => true

def Supplied (setup : LinkSetup) (link : LinkLoop) (event : Event) : Prop :=
  supplied setup link event = true

/-- None of the failures in these steps is handed to the caller. -/
def Retries (setup : LinkSetup) (link : LinkLoop) (event : Event) : Prop :=
  Supplied setup link event ∧ link.propagates event = false

instance (setup : LinkSetup) (link : LinkLoop) (event : Event) :
    Decidable (Supplied setup link event) :=
  inferInstanceAs (Decidable (_ = true))

instance (setup : LinkSetup) (link : LinkLoop) (event : Event) :
    Decidable (Retries setup link event) :=
  inferInstanceAs (Decidable (_ ∧ _))

/-! ## The invariant -/

def TerminalAcknowledged (link : LinkLoop) : Prop :=
  ∃ committed ∈ link.acknowledgements, ∃ sequence ≤ committed,
    link.journal.RecordsTerminal sequence

end LinkLoop

namespace LinkPoint

/-- What `run` knows where it is. -/
def Holds (link : LinkLoop) : LinkPoint → Prop
  | .greeting _ => link.receiving = true
  | .replaying _ terminalSequence remaining =>
      (∀ sequence ∈ terminalSequence, link.journal.RecordsTerminal sequence) ∧
        ∀ observation ∈ remaining, link.journal.Records observation
  | .live _ terminalSequence _ =>
      ∀ sequence ∈ terminalSequence, link.journal.RecordsTerminal sequence
  | .forwarding terminalSequence observation =>
      (∀ sequence ∈ terminalSequence, link.journal.RecordsTerminal sequence) ∧
        link.journal.Records observation
  | .failed _ => False
  | .finished => link.TerminalAcknowledged
  | _ => True

end LinkPoint

namespace LinkLoop

variable {setup : LinkSetup} {link next : LinkLoop} {event : Event}

structure Sound (link : LinkLoop) : Prop where
  unsent : ∀ observation ∈ link.unsent, link.journal.Records observation
  liveObservations : ∀ observation ∈ link.liveObservations,
    link.journal.Records observation
  point : link.point.Holds link

/-- Nothing that was recorded or received is lost. -/
structure Extends (link next : LinkLoop) : Prop where
  records : ∀ observation, link.journal.Records observation →
    next.journal.Records observation
  acknowledgements : link.acknowledgements ⊆ next.acknowledgements

theorem Extends.terminal (extended : link.Extends next) {sequence : Nat}
    (recorded : link.journal.RecordsTerminal sequence) :
    next.journal.RecordsTerminal sequence := by
  obtain ⟨observation, records, terminal⟩ := recorded
  exact ⟨observation, extended.records _ records, terminal⟩

theorem Extends.holds (extended : link.Extends next)
    (receiving : next.receiving = link.receiving) {point : LinkPoint}
    (holds : point.Holds link) : point.Holds next := by
  cases point with
  | greeting recovery => exact receiving.trans holds
  | replaying sentSequence terminalSequence remaining =>
      exact ⟨fun sequence known => extended.terminal (holds.1 sequence known),
        fun observation waits => extended.records _ (holds.2 observation waits)⟩
  | live sentSequence terminalSequence observationsOpen =>
      exact fun sequence known => extended.terminal (holds sequence known)
  | forwarding terminalSequence observation =>
      exact ⟨fun sequence known => extended.terminal (holds.1 sequence known),
        extended.records _ holds.2⟩
  | finished =>
      obtain ⟨committed, received, sequence, atMost, recorded⟩ := holds
      exact ⟨committed, extended.acknowledgements received, sequence, atMost,
        extended.terminal recorded⟩
  | failed error => exact holds
  | starting | connecting | attaching recovery | welcoming recovery
    | welcomed recovery committed | acknowledged committed => trivial

/-- A step of the link takes nothing but from the live channel. -/
theorem Sound.moved (sound : link.Sound) (extended : link.Extends next)
    (unsent : next.unsent = link.unsent)
    (liveObservations : next.liveObservations ⊆ link.liveObservations)
    (point : next.point.Holds next) : next.Sound where
  unsent observation held :=
    extended.records _ (sound.unsent observation (unsent ▸ held))
  liveObservations observation waits :=
    extended.records _
      (sound.liveObservations observation (liveObservations waits))
  point := point

/-! ## The parts of a step -/

theorem extends_of_eq (journal : next.journal = link.journal)
    (acknowledgements : link.acknowledgements ⊆ next.acknowledgements) :
    link.Extends next :=
  ⟨fun _ recorded => journal ▸ recorded, acknowledgements⟩

theorem Sound.stays (sound : link.Sound)
    (journal : next.journal = link.journal)
    (acknowledgements : next.acknowledgements = link.acknowledgements)
    (receiving : next.receiving = link.receiving)
    (unsent : next.unsent = link.unsent)
    (liveObservations : next.liveObservations ⊆ link.liveObservations)
    (point : next.point.Holds link) : next.Sound := by
  have extended := extends_of_eq journal (fun _ received =>
    acknowledgements ▸ received)
  exact sound.moved extended unsent liveObservations
    (extended.holds receiving point)

theorem send_open {request : AttachRequest} {point : LinkPoint}
    (receiving : link.receiving = true)
    (sent : link.send request point = some next) :
    next =
      { link with
        requests := link.requests ++ [request]
        point := point } := by
  unfold send at sent
  rw [if_neg (by simp [receiving])] at sent
  split at sent
  · exact (Option.some.inj sent).symm
  · cases sent

theorem send_closed {request : AttachRequest} {point : LinkPoint}
    (closed : link.receiving = false)
    (sent : link.send request point = some next) :
    next.point = .failed .requestsClosed := by
  unfold send at sent
  rw [if_pos closed] at sent
  cases sent
  rfl

theorem acknowledge_point {committed : Nat}
    {outcome : RuntimeJournal.WriteOutcome} {point : LinkPoint}
    (journaled : journals setup link committed outcome = true) :
    (acknowledge setup.codec link committed outcome point).point = point := by
  unfold acknowledge
  unfold journals at journaled
  dsimp only
  split
  · rename_i error failed
    rw [failed] at journaled
    cases journaled
  · rfl

theorem extends_acknowledge (link : LinkLoop) (committed : Nat)
    (outcome : RuntimeJournal.WriteOutcome) (point : LinkPoint) :
    link.Extends (acknowledge setup.codec link committed outcome point) :=
  ⟨fun _ recorded => recorded.append _ _ _, fun _ => id⟩

theorem commanded (setup : LinkSetup) (link : LinkLoop)
    (response : AttachResponse) :
    ∃ stop policy, response.command.elim link (link.command setup) =
      { link with stop := stop, policy := policy } := by
  cases response.command with
  | none => exact ⟨_, _, rfl⟩
  | some command =>
      simp only [Option.elim, LinkLoop.command]
      split
      · exact ⟨_, _, rfl⟩
      · exact ⟨_, _, rfl⟩
      · split <;> exact ⟨_, _, rfl⟩
      · exact ⟨_, _, rfl⟩

theorem terminalAfter_recorded {terminalSequence : Option Nat}
    {observation : RuntimeObservation}
    (known : ∀ sequence ∈ terminalSequence,
      link.journal.RecordsTerminal sequence)
    (recorded : link.journal.Records observation) :
    ∀ sequence ∈ terminalAfter terminalSequence observation,
      link.journal.RecordsTerminal sequence := by
  intro sequence after
  unfold terminalAfter at after
  split at after
  · rename_i terminal
    exact ⟨observation, recorded, terminal, Option.some.inj after⟩
  · exact known sequence after

theorem recordedTerminal_recorded {journal : RuntimeJournal} {sequence : Nat}
    (found : recordedTerminal journal = some sequence) :
    journal.RecordsTerminal sequence := by
  obtain ⟨observation, hfind, hsequence⟩ := Option.map_eq_some_iff.mp found
  have member := List.mem_reverse.mp (List.mem_of_find?_eq_some hfind)
  exact ⟨observation, RuntimeJournal.records_of_mem member,
    List.find?_some hfind, hsequence⟩

/-! ## One step -/

theorem Sound.at (sound : link.Sound) {point : LinkPoint}
    (holds : point.Holds link) : { link with point := point }.Sound :=
  sound.stays rfl rfl rfl rfl (fun _ => id) holds

theorem Sound.retry (sound : link.Sound) : link.retry.Sound :=
  sound.moved (extends_of_eq rfl fun _ => id) rfl (fun _ => id) trivial

theorem Sound.sent (sound : link.Sound) {observation : RuntimeObservation}
    {point : LinkPoint} (receiving : link.receiving = true)
    (sent : link.sendObservation observation point = some next)
    (holds : point.Holds link) : next.Sound := by
  have same := send_open receiving sent
  subst same
  exact sound.stays rfl rfl rfl rfl (fun _ => id) holds

theorem Sound.acknowledge (sound : link.Sound) {committed : Nat}
    {outcome : RuntimeJournal.WriteOutcome} {point : LinkPoint}
    (journaled : journals setup link committed outcome = true)
    (holds : point.Holds link) :
    (link.acknowledge setup.codec committed outcome point).Sound := by
  have extended := @extends_acknowledge setup link committed outcome point
  refine sound.moved extended rfl (fun _ => id) ?_
  rw [acknowledge_point journaled]
  exact extended.holds rfl holds

theorem Sound.respond (sound : link.Sound)
    {outcome : RuntimeJournal.WriteOutcome} {response : AttachResponse}
    {sentSequence : Nat} {terminalSequence : Option Nat}
    {observationsOpen : Bool}
    (live : link.point = .live sentSequence terminalSequence observationsOpen)
    (supplied : Supplied setup link (.respond (.arrived response) outcome)) :
    (link.respond setup terminalSequence response outcome).Sound := by
  have known : ∀ sequence ∈ terminalSequence,
      link.journal.RecordsTerminal sequence := by
    have holds := sound.point
    rw [live] at holds
    exact holds
  obtain ⟨stop, policy, hcommanded⟩ := commanded setup link response
  unfold LinkLoop.respond
  simp only [Supplied, LinkLoop.supplied] at supplied
  rw [hcommanded]
  cases hresponse : response.acknowledgement with
  | none => exact sound.stays rfl rfl rfl rfl (fun _ => id) sound.point
  | some acknowledgement =>
      rw [hresponse] at supplied
      have extended : link.Extends
          { link with
            stop := stop
            policy := policy
            acknowledgements :=
              link.acknowledgements ++ [acknowledgement.committedSequence] } :=
        extends_of_eq rfl (List.subset_append_left _ _)
      have received := sound.moved extended rfl (fun _ => id)
        (extended.holds rfl sound.point)
      refine received.acknowledge supplied ?_
      split
      · rename_i reached
        obtain ⟨sequence, hterminal, atMost⟩ :=
          (Option.any_eq_true _ _).mp reached
        exact ⟨_, List.mem_concat_self, sequence, by simpa using atMost,
          known sequence hterminal⟩
      · exact extended.holds rfl sound.point

theorem Sound.receive (sound : link.Sound) {sentSequence : Nat}
    {terminalSequence : Option Nat}
    (live : link.point = .live sentSequence terminalSequence true)
    (received : link.receive sentSequence terminalSequence = some next) :
    next.Sound := by
  have known : ∀ sequence ∈ terminalSequence,
      link.journal.RecordsTerminal sequence := by
    have holds := sound.point
    rw [live] at holds
    exact holds
  unfold LinkLoop.receive at received
  split at received
  · split at received
    · cases received
    cases received
    refine sound.stays rfl rfl rfl rfl (fun _ => id) ?_
    intro sequence found
    rcases Option.or_eq_some_iff.mp found with before | ⟨-, recorded⟩
    · exact known sequence before
    · exact recordedTerminal_recorded recorded
  · rename_i observation rest hlive
    have recorded := sound.liveObservations observation (by simp [hlive])
    have fewer : rest ⊆ link.liveObservations := by simp [hlive]
    split at received
    · cases received
      exact sound.stays rfl rfl rfl rfl fewer sound.point
    · cases received
      exact sound.stays rfl rfl rfl rfl fewer ⟨known, recorded⟩

theorem record_some {codec : FrameCodec} {record : RuntimeRecord}
    (recorded : link.record codec record = some next) :
    let appended := link.journal.append codec link.bytes
      (RuntimeJournal.frameOf record) .synced
    appended.result = .ok () ∧
      next =
        { link with
          bytes := appended.bytes
          journal := appended.journal } := by
  unfold LinkLoop.record at recorded
  dsimp only at recorded
  split at recorded
  · cases recorded
  · exact ⟨‹_›, (Option.some.inj recorded).symm⟩

theorem Sound.record (sound : link.Sound) {codec : FrameCodec}
    {record : RuntimeRecord}
    (recorded : link.record codec record = some next) : next.Sound := by
  obtain ⟨-, rfl⟩ := record_some recorded
  have extended : link.Extends
      { link with
        bytes := (link.journal.append codec link.bytes
          (RuntimeJournal.frameOf record) .synced).bytes
        journal := (link.journal.append codec link.bytes
          (RuntimeJournal.frameOf record) .synced).journal } :=
    ⟨fun _ before => before.append _ _ _, fun _ => id⟩
  exact sound.moved extended rfl (fun _ => id) (extended.holds rfl sound.point)

theorem Sound.observe (sound : link.Sound) {codec : FrameCodec}
    {facts : ObservationFacts} {observedUnixMs : Int}
    (observed : link.observe codec facts observedUnixMs = some next) :
    next.Sound := by
  unfold LinkLoop.observe at observed
  dsimp only at observed
  split at observed
  · obtain ⟨middle, recorded, rfl⟩ := Option.map_eq_some_iff.mp observed
    have kept := sound.record recorded
    obtain ⟨synced, rfl⟩ := record_some recorded
    refine ⟨?_, kept.liveObservations,
      (extends_of_eq rfl fun _ => id).holds rfl kept.point⟩
    intro observation hunsent
    cases hunsent
    exact RuntimeJournal.records_appended synced
  · cases observed

theorem Sound.publish (sound : link.Sound)
    (published : step setup link .publish = some next) : next.Sound := by
  obtain ⟨observation, hunsent, rfl⟩ := Option.map_eq_some_iff.mp published
  refine ⟨by simp, ?_, (extends_of_eq rfl fun _ => id).holds rfl sound.point⟩
  intro waiting hmem
  rcases List.mem_append.mp hmem with before | last
  · exact sound.liveObservations waiting before
  · cases List.mem_singleton.mp last
    exact sound.unsent _ hunsent

theorem Sound.requestsClosed (sound : link.Sound)
    (closed : step setup link .requestsClosed = some next) : next.Sound := by
  simp only [LinkLoop.step] at closed
  split at closed
  · cases closed
  · rename_i elsewhere
    cases closed
    have holds := sound.point
    refine sound.moved (extends_of_eq rfl fun _ => id) rfl (fun _ => id) ?_
    dsimp only
    cases hpoint : link.point with
    | greeting recovery => exact absurd hpoint (elsewhere recovery)
    | starting | connecting | attaching recovery | welcoming recovery
      | welcomed recovery committed | acknowledged committed => trivial
    | replaying | live | forwarding | failed | finished =>
        rw [hpoint] at holds
        exact holds

/-- The greeting comes before `attach` takes the receiver. -/
theorem Sound.greets (sound : link.Sound) {recovery : RuntimeRecovery}
    (greeting : link.point = .greeting recovery) : link.receiving = true := by
  have holds := sound.point
  rw [greeting] at holds
  exact holds

theorem Sound.step (sound : link.Sound) (retries : Retries setup link event)
    (moved : step setup link event = some next) : next.Sound := by
  obtain ⟨supplied, kept⟩ := retries
  have point := sound.point
  cases event with
  | currentUserSid found =>
      simp only [LinkLoop.step] at moved
      split at moved
      · cases moved
        exact sound.at trivial
      · cases supplied
      · cases moved
  | connect established =>
      simp only [LinkLoop.step] at moved
      split at moved
      · cases moved
        unfold LinkLoop.connect
        split
        · exact sound.moved (extends_of_eq rfl fun _ => id) rfl (fun _ => id)
            rfl
        · exact sound.retry
      · cases moved
  | hello =>
      simp only [LinkLoop.step] at moved
      split at moved
      · rename_i recovery greeting
        have same := send_open (sound.greets greeting) moved
        subst same
        exact sound.stays rfl rfl rfl rfl (fun _ => id) trivial
      · cases moved
  | attach accepted =>
      simp only [LinkLoop.step] at moved
      split at moved
      · cases moved
        split
        · exact sound.at trivial
        · exact sound.retry
      · cases moved
  | welcome message =>
      simp only [LinkLoop.step] at moved
      split at moved
      · cases moved
        cases message with
        | failed status => cases kept
        | ended => exact sound.retry
        | arrived response =>
            simp only [LinkLoop.welcome]
            split
            · exact sound.retry
            · exact sound.at trivial
      · cases moved
  | acknowledgeWelcome outcome =>
      simp only [LinkLoop.step] at moved
      split at moved
      · rename_i recovery committed welcomed
        cases moved
        split
        · rename_i later
          refine sound.acknowledge ?_ trivial
          simpa [Supplied, LinkLoop.supplied, welcomed, Nat.not_le.mpr later]
            using supplied
        · exact sound.at trivial
      · cases moved
  | snapshot =>
      simp only [LinkLoop.step] at moved
      split at moved
      · cases moved
        refine sound.at ⟨by simp, ?_⟩
        exact fun observation waits => RuntimeJournal.records_of_mem waits
      · cases moved
  | replay =>
      simp only [LinkLoop.step] at moved
      split at moved
      · rename_i sentSequence terminalSequence observation remaining replaying
        rw [replaying] at point
        obtain ⟨known, recorded⟩ := point
        rw [List.forall_mem_cons] at recorded
        exact sound.sent (by simpa [propagates] using kept) moved
          ⟨terminalAfter_recorded known recorded.1, recorded.2⟩
      · cases moved
  | replayed =>
      simp only [LinkLoop.step] at moved
      split at moved
      · rename_i replaying
        rw [replaying] at point
        cases moved
        exact sound.at point.1
      · cases moved
  | respond message outcome =>
      simp only [LinkLoop.step] at moved
      split at moved
      · rename_i live
        cases message with
        | failed status =>
            cases moved
            exact sound.retry
        | ended =>
            cases moved
            exact sound.retry
        | arrived response =>
            cases moved
            exact sound.respond live supplied
      · cases moved
  | receive =>
      simp only [LinkLoop.step] at moved
      split at moved
      · rename_i live
        exact sound.receive live moved
      · cases moved
  | forward =>
      simp only [LinkLoop.step] at moved
      split at moved
      · rename_i terminalSequence observation forwarding
        rw [forwarding] at point
        exact sound.sent (by simpa [propagates] using kept) moved
          (terminalAfter_recorded point.1 point.2)
      · cases moved
  | requestTaken =>
      simp only [LinkLoop.step] at moved
      split at moved
      · cases moved
        exact sound.stays rfl rfl rfl rfl (fun _ => id) point
      · cases moved
  | requestsClosed => exact sound.requestsClosed moved
  | observe facts observedUnixMs => exact sound.observe moved
  | publish => exact sound.publish moved
  | checkpoint checkpoint =>
      simp only [LinkLoop.step] at moved
      split at moved
      · exact sound.record moved
      · cases moved
  | recorderEnded =>
      simp only [LinkLoop.step] at moved
      split at moved
      · cases moved
        exact sound.stays rfl rfl rfl rfl (fun _ => id) point
      · cases moved

/-! ## Whole runs -/

/-- The link of a supervisor that has just opened its journal. -/
structure Started (link : LinkLoop) : Prop where
  unsent : link.unsent = none
  liveObservations : link.liveObservations = []
  point : link.point = .starting

theorem Started.sound (started : link.Started) : link.Sound where
  unsent := by simp [started.unsent]
  liveObservations := by simp [started.liveObservations]
  point := by
    rw [started.point]
    trivial

theorem Sound.run (sound : link.Sound)
    (run : Runs (LinkLoop.step setup) (Retries setup) link next) : next.Sound :=
  run.invariant (fun _ _ _ sound retries moved => sound.step retries moved)
    sound

theorem Sound.failure (sound : link.Sound) (fails : link.fails event = true)
    (moved : LinkLoop.step setup link event = some next) :
    next.point = .connecting ↔ link.propagates event = false := by
  cases event with
  | connect established =>
      simp only [LinkLoop.step] at moved
      split at moved
      · cases moved
        cases established
        · exact ⟨fun _ => rfl, fun _ => rfl⟩
        · cases fails
      · cases moved
  | attach accepted =>
      simp only [LinkLoop.step] at moved
      split at moved
      · cases moved
        cases accepted
        · exact ⟨fun _ => rfl, fun _ => rfl⟩
        · cases fails
      · cases moved
  | hello =>
      simp only [LinkLoop.step] at moved
      split at moved
      · rename_i recovery greeting
        simp [LinkLoop.fails, sound.greets greeting] at fails
      · cases moved
  | welcome message =>
      simp only [LinkLoop.step] at moved
      split at moved
      · cases moved
        cases message with
        | failed status => simp [LinkLoop.welcome, propagates]
        | ended => exact ⟨fun _ => rfl, fun _ => rfl⟩
        | arrived response =>
            have absent : response.welcome = none :=
              Option.isNone_iff_eq_none.mp fails
            simp [LinkLoop.welcome, absent, LinkLoop.retry, propagates]
      · cases moved
  | replay =>
      have closed : link.receiving = false := by
        simpa [LinkLoop.fails] using fails
      simp only [LinkLoop.step] at moved
      split at moved
      · simp [send_closed closed moved, propagates, closed]
      · cases moved
  | forward =>
      have closed : link.receiving = false := by
        simpa [LinkLoop.fails] using fails
      simp only [LinkLoop.step] at moved
      split at moved
      · simp [send_closed closed moved, propagates, closed]
      · cases moved
  | respond message outcome =>
      simp only [LinkLoop.step] at moved
      split at moved
      · cases message with
        | failed status =>
            cases moved
            exact ⟨fun _ => rfl, fun _ => rfl⟩
        | ended =>
            cases moved
            exact ⟨fun _ => rfl, fun _ => rfl⟩
        | arrived response => cases fails
      · cases moved
  | _ => cases fails

theorem run_outlives {start : LinkLoop} (started : start.Started)
    (run : Runs (LinkLoop.step setup) (Retries setup) start link) :
    (∀ error, link.point ≠ .failed error) ∧
      (link.point = .finished → link.TerminalAcknowledged) ∧
      ∀ event next, link.fails event = true →
        LinkLoop.step setup link event = some next →
        (next.point = .connecting ↔ link.propagates event = false) := by
  have sound := started.sound.run run
  have point := sound.point
  refine ⟨?_, ?_, fun event next fails moved => sound.failure fails moved⟩
  · intro error failed
    rw [failed] at point
    exact point
  · intro finished
    rw [finished] at point
    exact point

/-! ## A controller that dies -/

def smallCodec : FrameCodec where
  encodeToVec frame :=
    match frame.record with
    | some (.observation observation) =>
        let kind := observation.kind.name.toList.map (UInt8.ofNat ·.toNat)
        let payload :=
          [0x08, UInt8.ofNat observation.sequence,
              0x12, UInt8.ofNat kind.length] ++ kind ++
            [0x18, UInt8.ofNat observation.attempt] ++
            (observation.exitCode.elim [] ([0x20, ·.toUInt8])) ++
            [0x30, UInt8.ofNat observation.observedUnixMs.toNat] ++
            (if observation.terminal then [0x38, 0x01] else []) ++
            (if observation.workloadProcessId = 0 then []
              else [0x40, UInt8.ofNat observation.workloadProcessId])
        [0x08, 0x01, 0x1A, UInt8.ofNat payload.length] ++ payload
    | some (.acknowledgement acknowledgement) =>
        [0x08, 0x01, 0x22, 0x02, 0x08,
          UInt8.ofNat acknowledgement.committedSequence]
    | _ => []
  decode _ := .error "failed to decode Protobuf message"
  crc32c := JournalWorld.crc32c

def toolSetup : LinkSetup where
  configuration := toolConfiguration
  identity := ⟨"supervisor", 1⟩
  codec := smallCodec
  decodePolicy _ := none

def toolLink : LinkLoop where
  bytes := []
  journal := ⟨false, []⟩
  sequence := 0
  unsent := none
  liveObservations := []
  recording := true
  requests := []
  receiving := false
  stop := false
  policy := none
  acknowledgements := []
  point := .starting

theorem toolLink_started : toolLink.Started := ⟨rfl, rfl, rfl⟩

def exitedFacts : ObservationFacts where
  kind := .completed
  attempt := 1
  exitCode := some 0
  detail := ""
  terminal := true
  workloadProcessId := 0

def welcomeFrom (committedSequence : Nat) : StreamMessage :=
  .arrived ⟨some ⟨committedSequence⟩, none, none⟩

def retriedEvents : List Event :=
  [.currentUserSid (.ok ()), .connect false, .connect true, .hello,
    .attach false, .connect true, .hello, .attach true, .welcome .ended,
    .connect true, .hello, .attach true, .requestTaken,
    .welcome (welcomeFrom 0), .acknowledgeWelcome .synced, .snapshot, .replayed,
    .respond (.failed "broken pipe") .synced,
    .observe exitedFacts 5, .connect true, .hello, .attach true,
    .welcome (welcomeFrom 0), .acknowledgeWelcome .synced, .snapshot, .replay,
    .replayed, .publish, .receive,
    .respond (.arrived ⟨none, none, some ⟨1⟩⟩) .synced]

def retriedLink : LinkLoop :=
  (execute (step toolSetup) toolLink retriedEvents).getD toolLink

theorem run_outlives_retried :
    (∀ error, retriedLink.point ≠ .failed error) ∧
      (retriedLink.point = .finished → retriedLink.TerminalAcknowledged) ∧
      ∀ event next, retriedLink.fails event = true →
        step toolSetup retriedLink event = some next →
        (next.point = .connecting ↔ retriedLink.propagates event = false) :=
  run_outlives toolLink_started (executeAdmitted_getD_runs (by decide +kernel))

example : retriedLink.point = .finished ∧
    retriedLink.acknowledgements = [1] := by decide +kernel

/-- The controller dies after `Welcome`, before the replay. -/
def diedEvents : List Event :=
  [.currentUserSid (.ok ()), .observe exitedFacts 5, .connect true, .hello,
    .attach true, .requestTaken, .welcome (welcomeFrom 0),
    .acknowledgeWelcome .synced, .snapshot, .requestsClosed, .replay]

def diedLink : LinkLoop :=
  (execute (step toolSetup) toolLink diedEvents).getD toolLink

/-- The link returns an error, and nothing was ever acknowledged. -/
theorem link_ends_early :
    toolLink.Started ∧
      Runs (step toolSetup) (Supplied toolSetup) toolLink diedLink ∧
      diedLink.point = .failed .requestsClosed ∧
      ¬ diedLink.TerminalAcknowledged := by
  refine ⟨toolLink_started, executeAdmitted_getD_runs (by decide +kernel),
    by decide +kernel, ?_⟩
  rintro ⟨committed, received, -⟩
  have none_received : diedLink.acknowledgements = [] := by decide +kernel
  simp [none_received] at received

end LinkLoop

end Susm.Supervisor
