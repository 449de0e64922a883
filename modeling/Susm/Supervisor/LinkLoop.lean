import Susm.Foundation.Transition
import Susm.Protocol.Attach
import Susm.Supervisor.Journal
import Susm.Supervisor.Runner

/-!
# The loop of the controller link

`controller_link::run` from one await point to the next.  The other end is
arbitrary: it answers with any message, and it may close the request channel
and end or break the response stream whenever it likes.  The recorder appends
to the journal and publishes on the live channel beside the link.
-/

namespace Susm.Supervisor

open Susm.Foundation
open Susm.Protocol

/-- The arguments of `run` and the encodings that other packages provide. -/
structure LinkSetup where
  configuration : ExecutionConfiguration
  identity : SupervisorIdentity
  codec : FrameCodec
  decodePolicy : List UInt8 → Option PolicyUpdate

inductive LinkError where
  | userSid (source : String)
  | requestsClosed
  | status (message : String)
  | journal (error : JournalError)
  deriving DecidableEq, Repr

/-- What `responses.message()` returns. -/
inductive StreamMessage where
  | failed (status : String)
  | ended
  | arrived (response : AttachResponse)
  deriving DecidableEq, Repr

/-- The await points of `run`, and the steps between them. -/
inductive LinkPoint where
  | starting
  | connecting
  | greeting (recovery : RuntimeRecovery)
  | attaching (recovery : RuntimeRecovery)
  | welcoming (recovery : RuntimeRecovery)
  | welcomed (recovery : RuntimeRecovery) (committed : Nat)
  | acknowledged (committed : Nat)
  | replaying (sentSequence : Nat) (terminalSequence : Option Nat)
      (remaining : List RuntimeObservation)
  | live (sentSequence : Nat) (terminalSequence : Option Nat)
      (observationsOpen : Bool)
  | forwarding (terminalSequence : Option Nat)
      (observation : RuntimeObservation)
  | failed (error : LinkError)
  | finished
  deriving DecidableEq, Repr

/--
The link and the recorder.  `recording` says that the sender of the live
channel exists, `receiving` that the receiver of the request channel does;
`acknowledgements` lists the committed sequences that were received.
-/
structure LinkLoop where
  bytes : List UInt8
  journal : RuntimeJournal
  sequence : Nat
  unsent : Option RuntimeObservation
  liveObservations : List RuntimeObservation
  recording : Bool
  requests : List AttachRequest
  receiving : Bool
  stop : Bool
  policy : Option PolicyUpdate
  acknowledgements : List Nat
  point : LinkPoint
  deriving DecidableEq

namespace LinkLoop

def requestCapacity : Nat := 32

inductive Event where
  | currentUserSid (found : Except String Unit)
  | connect (established : Bool)
  | hello
  | attach (accepted : Bool)
  | welcome (message : StreamMessage)
  | acknowledgeWelcome (outcome : RuntimeJournal.WriteOutcome)
  | snapshot
  | replay
  | replayed
  | respond (message : StreamMessage) (outcome : RuntimeJournal.WriteOutcome)
  | receive
  | forward
  | requestTaken
  | requestsClosed
  | observe (facts : ObservationFacts) (observedUnixMs : Int)
  | publish
  | checkpoint (checkpoint : Checkpoint)
  | recorderEnded

/-! ## The link -/

/-- The connection is dropped; after a sleep the loop starts again. -/
def retry (link : LinkLoop) : LinkLoop :=
  { link with requests := [], receiving := false, point := .connecting }

/-- `connect`, the request channel and what the journal recovers. -/
def connect (link : LinkLoop) (established : Bool) : LinkLoop :=
  if established then
    { link with
      requests := []
      receiving := true
      point := .greeting link.journal.recovery }
  else link.retry

/-- A send waits while the channel is full. -/
def send (link : LinkLoop) (request : AttachRequest) (next : LinkPoint) :
    Option LinkLoop :=
  if link.receiving = false then
    some { link with point := .failed .requestsClosed }
  else if link.requests.length < requestCapacity then
    some { link with requests := link.requests ++ [request], point := next }
  else none

def sendObservation (link : LinkLoop) (observation : RuntimeObservation)
    (next : LinkPoint) : Option LinkLoop :=
  link.send
    (.observation
      { sequence := observation.sequence
        kind := observation.kind
        exitCode := observation.exitCode
        detail := observation.detail
        attempt := observation.attempt
        workloadProcessId := observation.workloadProcessId })
    next

def sendHello (setup : LinkSetup) (link : LinkLoop)
    (recovery : RuntimeRecovery) : Option LinkLoop :=
  link.send
    (.hello
      { managerSessionId := setup.configuration.managerSessionId
        workloadId := setup.configuration.workloadId
        executionId := setup.configuration.executionId
        supervisorId := setup.identity.id
        incarnation := setup.identity.incarnation
        executionConfigHash := setup.configuration.executionConfigHash
        lastSequence := recovery.lastSequence })
    (.attaching recovery)

/-- The first message; only a broken stream is an error. -/
def welcome (link : LinkLoop) (recovery : RuntimeRecovery) :
    StreamMessage → LinkLoop
  | .failed status => { link with point := .failed (.status status) }
  | .ended => link.retry
  | .arrived response =>
      match response.welcome with
      | none => link.retry
      | some welcome =>
          { link with
            point := .welcomed recovery welcome.committedSequence }

/-- `journal.acknowledge`, with the point that follows its success. -/
def acknowledge (codec : FrameCodec) (link : LinkLoop) (committed : Nat)
    (outcome : RuntimeJournal.WriteOutcome) (next : LinkPoint) : LinkLoop :=
  let appended := link.journal.append codec link.bytes
    (RuntimeJournal.frameOf (.acknowledgement ⟨committed⟩)) outcome
  { link with
    bytes := appended.bytes
    journal := appended.journal
    point :=
      match appended.result with
      | .error error => .failed (.journal error)
      | .ok () => next }

def terminalAfter (terminalSequence : Option Nat)
    (observation : RuntimeObservation) : Option Nat :=
  if observation.terminal then some observation.sequence
  else terminalSequence

def command (setup : LinkSetup) (link : LinkLoop) (command : Command) :
    LinkLoop :=
  match command.kind with
  | "stop" | "session-ending" => { link with stop := true }
  | "update-policy" =>
      match setup.decodePolicy command.payload with
      | some update => { link with policy := some update }
      | none => link
  | _ => link

def respond (setup : LinkSetup) (link : LinkLoop)
    (terminalSequence : Option Nat) (response : AttachResponse)
    (outcome : RuntimeJournal.WriteOutcome) : LinkLoop :=
  let commanded := response.command.elim link (link.command setup)
  match response.acknowledgement with
  | none => commanded
  | some acknowledgement =>
      let committed := acknowledgement.committedSequence
      acknowledge setup.codec
        { commanded with
          acknowledgements := commanded.acknowledgements ++ [committed] }
        committed outcome
        (if terminalSequence.any (· ≤ committed) then .finished
          else link.point)

def recordedTerminal (journal : RuntimeJournal) : Option Nat :=
  ((journal.observationsAfter 0).reverse.find? (·.terminal)).map
    RuntimeObservation.sequence

/-- `recv` on the live channel; it waits as long as one may still arrive. -/
def receive (link : LinkLoop) (sentSequence : Nat)
    (terminalSequence : Option Nat) : Option LinkLoop :=
  match link.liveObservations with
  | [] =>
      if link.recording then none
      else some
        { link with
          point := .live sentSequence
            (terminalSequence.or (recordedTerminal link.journal)) false }
  | observation :: rest =>
      let received := { link with liveObservations := rest }
      if observation.sequence ≤ sentSequence then some received
      else some
        { received with point := .forwarding terminalSequence observation }

/-! ## The recorder -/

/-- The process ends with the recorder when an append of its own fails. -/
def record (codec : FrameCodec) (link : LinkLoop) (record : RuntimeRecord) :
    Option LinkLoop :=
  let appended := link.journal.append codec link.bytes
    (RuntimeJournal.frameOf record) .synced
  match appended.result with
  | .error _ => none
  | .ok () => some
      { link with bytes := appended.bytes, journal := appended.journal }

/-- `RuntimeRecorder::observe` up to the send on the live channel. -/
def observe (codec : FrameCodec) (link : LinkLoop) (facts : ObservationFacts)
    (observedUnixMs : Int) : Option LinkLoop :=
  let sequence := saturatingAdd (2 ^ 64) link.sequence 1
  let observation := facts.observation sequence observedUnixMs
  if link.recording ∧ link.unsent = none then
    (link.record codec (.observation observation)).map fun link =>
      { link with sequence := sequence, unsent := some observation }
  else none

/-! ## Steps -/

def step (setup : LinkSetup) (link : LinkLoop) : Event → Option LinkLoop
  | .currentUserSid found =>
      match link.point, found with
      | .starting, .ok () => some { link with point := .connecting }
      | .starting, .error source => some
          { link with point := .failed (.userSid source) }
      | _, _ => none
  | .connect established =>
      match link.point with
      | .connecting => some (link.connect established)
      | _ => none
  | .hello =>
      match link.point with
      | .greeting recovery => link.sendHello setup recovery
      | _ => none
  | .attach accepted =>
      match link.point with
      | .attaching recovery => some
          (if accepted then { link with point := .welcoming recovery }
            else link.retry)
      | _ => none
  | .welcome message =>
      match link.point with
      | .welcoming recovery => some (link.welcome recovery message)
      | _ => none
  | .acknowledgeWelcome outcome =>
      match link.point with
      | .welcomed recovery committed => some
          (if recovery.committedSequence < committed then
            link.acknowledge setup.codec committed outcome
              (.acknowledged committed)
          else { link with point := .acknowledged committed })
      | _ => none
  | .snapshot =>
      match link.point with
      | .acknowledged committed => some
          { link with
            point := .replaying committed none
              (link.journal.observationsAfter committed) }
      | _ => none
  | .replay =>
      match link.point with
      | .replaying _ terminalSequence (observation :: remaining) =>
          link.sendObservation observation
            (.replaying observation.sequence
              (terminalAfter terminalSequence observation) remaining)
      | _ => none
  | .replayed =>
      match link.point with
      | .replaying sentSequence terminalSequence [] => some
          { link with point := .live sentSequence terminalSequence true }
      | _ => none
  | .respond message outcome =>
      match link.point with
      | .live _ terminalSequence _ =>
          match message with
          | .failed _ | .ended => some link.retry
          | .arrived response => some
              (link.respond setup terminalSequence response outcome)
      | _ => none
  | .receive =>
      match link.point with
      | .live sentSequence terminalSequence true =>
          link.receive sentSequence terminalSequence
      | _ => none
  | .forward =>
      match link.point with
      | .forwarding terminalSequence observation =>
          link.sendObservation observation
            (.live observation.sequence
              (terminalAfter terminalSequence observation) true)
      | _ => none
  | .requestTaken =>
      if link.receiving then
        some { link with requests := link.requests.tail }
      else none
  | .requestsClosed =>
      -- The link holds the receiver itself until it calls `attach`.
      match link.point with
      | .greeting _ => none
      | _ => some { link with receiving := false }
  | .observe facts observedUnixMs =>
      link.observe setup.codec facts observedUnixMs
  | .publish =>
      link.unsent.map fun observation =>
        { link with
          unsent := none
          liveObservations := link.liveObservations ++ [observation] }
  | .checkpoint checkpoint =>
      if link.recording then
        link.record setup.codec (.checkpoint checkpoint)
      else none
  | .recorderEnded =>
      if link.unsent = none then some { link with recording := false }
      else none

end LinkLoop

end Susm.Supervisor
