import Susm.Controller.Storage
import Susm.Foundation.Transition
import Susm.Supervisor.Journal
import Susm.Supervisor.Runner

/-!
# The controller link

One execution, its recorder, the link of its supervisor and the streams that
the controller reads.  The recorder appends an observation to the journal and
then puts it on the live channel; the link replays the journal on every new
connection and then follows the channel; the controller commits what arrives.
Every append to the journal succeeds, everything else may happen at any time.
-/

namespace Susm.Supervisor

open Susm.Foundation
open Susm.Protocol
open Susm.Controller

/-- A stream to the controller; what it has not read is lost when it closes. -/
structure Connection where
  committedSequence : Nat
  sent : List RuntimeObservation
  inbound : List RuntimeObservation
  isOpen : Bool
  deriving DecidableEq, Repr

namespace Connection

/-- The stream after `Welcome`. -/
def welcome (committedSequence : Nat) : Connection :=
  ⟨committedSequence, [], [], true⟩

/-- What is sent on a closed stream arrives nowhere. -/
def send (connection : Connection) (observation : RuntimeObservation) :
    Connection :=
  { connection with
    sent := connection.sent ++ [observation]
    inbound :=
      if connection.isOpen then connection.inbound ++ [observation]
      else connection.inbound }

def close (connection : Connection) : Connection :=
  { connection with inbound := [], isOpen := false }

def read (connection : Connection) : Connection :=
  { connection with inbound := connection.inbound.tail }

end Connection

/-- Where `controller_link::run` is; connections are named by their index. -/
inductive LinkState where
  | connecting
  | greeting (recoveredSequence : Nat)
  | welcomed (connection recoveredSequence : Nat)
  | acknowledged (connection : Nat)
  | replaying (connection sentSequence : Nat)
      (remaining : List RuntimeObservation)
  | live (connection sentSequence : Nat)
  | ended
  deriving DecidableEq, Repr

/-- `applied` lists the observations for which the commit reported `true`. -/
structure LinkWorld where
  bytes : List UInt8
  journal : RuntimeJournal
  sequence : Nat
  unsent : Option RuntimeObservation
  liveObservations : List RuntimeObservation
  link : LinkState
  connections : List Connection
  database : Database
  applied : List RuntimeObservation
  deriving DecidableEq

inductive LinkEvent where
  | observe (facts : ObservationFacts) (observedUnixMs : Int)
  | publish
  | checkpoint (checkpoint : Checkpoint)
  | hello
  | attach (welcomeArrives : Bool)
  | attachFailed
  | acknowledgeWelcome
  | snapshot
  | replay
  | replayed
  | receive
  | acknowledgement (committedSequence : Nat)
  | disconnected
  | returned
  | record (connection : Nat) (update : ObservationUpdate) (stored : Bool)
  | closed (connection : Nat)
  | controllerExited
  | transaction (database : Database)
  | replaced

namespace LinkWorld

def append (codec : FrameCodec) (world : LinkWorld) (record : RuntimeRecord) :
    Option LinkWorld :=
  let appended := world.journal.append codec world.bytes
    (RuntimeJournal.frameOf record) .synced
  match appended.result with
  | .error _ => none
  | .ok () => some
      { world with bytes := appended.bytes, journal := appended.journal }

/-- `send_observation` on the connection. -/
def send (world : LinkWorld) (connection : Nat)
    (observation : RuntimeObservation) : LinkWorld :=
  { world with
    connections := world.connections.modify connection
      (·.send observation) }

/-- `RuntimeRecorder::observe` up to the send on the live channel. -/
def observe (codec : FrameCodec) (world : LinkWorld) (facts : ObservationFacts)
    (observedUnixMs : Int) : Option LinkWorld :=
  let sequence := saturatingAdd (2 ^ 64) world.sequence 1
  let observation := facts.observation sequence observedUnixMs
  if world.unsent.isSome then none
  else
    (world.append codec (.observation observation)).map fun world =>
      { world with sequence := sequence, unsent := some observation }

def record (executionId : String) (world : LinkWorld) (connection : Nat)
    (update : ObservationUpdate) (stored : Bool) : Option LinkWorld :=
  match world.connections[connection]? with
  | none => none
  | some stream =>
      match stream.inbound with
      | [] => none
      | observation :: _ =>
          let closed :=
            { world with
              connections := world.connections.modify connection (·.close) }
          if stored then
            match world.database.commitObservation executionId
              observation.sequence update with
            | .error _ => some closed
            | .ok (committed, database) => some
                { world with
                  connections := world.connections.modify connection (·.read)
                  database := database
                  applied :=
                    if committed then world.applied ++ [observation]
                    else world.applied }
          else some closed

def committed (executionId : String) (database : Database) : Option Nat :=
  (database.getExecution executionId).map StoredExecution.committedSequence

def step (codec : FrameCodec) (executionId : String) (world : LinkWorld) :
    LinkEvent → Option LinkWorld
  | .observe facts observedUnixMs => world.observe codec facts observedUnixMs
  | .publish =>
      world.unsent.map fun observation =>
        { world with
          unsent := none
          liveObservations := world.liveObservations ++ [observation] }
  | .checkpoint checkpoint => world.append codec (.checkpoint checkpoint)
  | .hello =>
      match world.link with
      | .connecting => some
          { world with
            link := .greeting world.journal.recovery.committedSequence }
      | _ => none
  | .attach welcomeArrives =>
      match world.link, committed executionId world.database with
      | .greeting recoveredSequence, some committedSequence => some
          { world with
            connections :=
              world.connections ++ [.welcome committedSequence]
            link :=
              if welcomeArrives then
                .welcomed world.connections.length recoveredSequence
              else .connecting }
      | _, _ => none
  | .attachFailed =>
      match world.link with
      | .greeting _ => some { world with link := .connecting }
      | _ => none
  | .acknowledgeWelcome =>
      match world.link with
      | .welcomed connection recoveredSequence =>
          world.connections[connection]?.bind fun stream =>
            let next :=
              { world with link := .acknowledged connection }
            if recoveredSequence < stream.committedSequence then
              next.append codec (.acknowledgement ⟨stream.committedSequence⟩)
            else some next
      | _ => none
  | .snapshot =>
      match world.link with
      | .acknowledged connection =>
          world.connections[connection]?.map fun stream =>
            { world with
              link := .replaying connection stream.committedSequence
                (world.journal.observationsAfter stream.committedSequence) }
      | _ => none
  | .replay =>
      match world.link with
      | .replaying connection _ (observation :: remaining) => some
          { world.send connection observation with
            link := .replaying connection observation.sequence remaining }
      | _ => none
  | .replayed =>
      match world.link with
      | .replaying connection sentSequence [] => some
          { world with link := .live connection sentSequence }
      | _ => none
  | .receive =>
      match world.link, world.liveObservations with
      | .live connection sentSequence, observation :: rest =>
          let received := { world with liveObservations := rest }
          if observation.sequence ≤ sentSequence then some received
          else some
            { received.send connection observation with
              link := .live connection observation.sequence }
      | _, _ => none
  | .acknowledgement committedSequence =>
      match world.link with
      | .live _ _ => world.append codec (.acknowledgement ⟨committedSequence⟩)
      | _ => none
  | .disconnected =>
      match world.link with
      | .live _ _ => some { world with link := .connecting }
      | _ => none
  | .returned => some { world with link := .ended }
  | .record connection update stored =>
      world.record executionId connection update stored
  | .closed connection => some
      { world with
        connections := world.connections.modify connection (·.close) }
  | .controllerExited => some
      { world with connections := world.connections.map (·.close) }
  | .transaction database =>
      if committed executionId database =
          committed executionId world.database then
        some { world with database := database }
      else none
  | .replaced => some
      { world with
        sequence := world.journal.recovery.lastSequence
        unsent := none
        liveObservations := []
        link := .connecting }

/-- The first supervisor of an execution whose row has just been inserted. -/
structure Fresh (executionId : String) (world : LinkWorld) : Prop where
  bytes : world.bytes = []
  frames : world.journal.frames = []
  sequence : world.sequence = 0
  unsent : world.unsent = none
  liveObservations : world.liveObservations = []
  link : world.link = .connecting
  connections : world.connections = []
  applied : world.applied = []
  row : committed executionId world.database = some 0

def observations (world : LinkWorld) : List RuntimeObservation :=
  world.journal.frames.filterMap fun frame =>
    match frame.record with
    | some (.observation observation) => some observation
    | _ => none

end LinkWorld

end Susm.Supervisor
