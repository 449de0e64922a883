import Susm.Controller.Announcements
import Susm.Controller.WorkloadPages
import Susm.Foundation.Watching

/-!
# Watching the workloads

`watch_workloads` streams snapshots to a client.  Its task is told that the
revision was raised, but not how often, and takes a snapshot some time after
that, while other sections go on.  The stream has room for a few snapshots; a
client that does not read them is given up with an error.
-/

namespace Susm.Controller

open Susm.Foundation
open Susm.Protocol

/-! ## The task of a watcher -/

structure WatchWorkloadsResponse where
  revision : Nat
  workloads : List Workload
  deriving DecidableEq, Repr

/-- `Manager::snapshot` -/
def State.snapshot (state : State) : WatchWorkloadsResponse :=
  ⟨state.revision, state.listWorkloads⟩

structure StreamStatus where
  code : String
  message : String
  deriving DecidableEq, Repr

def fellBehind : StreamStatus :=
  ⟨"RESOURCE_EXHAUSTED", "workload watcher fell behind; resubscribe"⟩

abbrev WatchItem := Except StreamStatus WatchWorkloadsResponse

/-- The room of the channel between the task and the client. -/
def watchCapacity : Nat := 16

inductive WatchPhase where
  | starting
  | opening (snapshot : WatchWorkloadsResponse)
  | waiting
  | looking
  | offering (snapshot : WatchWorkloadsResponse)
  | failing
  | ended
  deriving DecidableEq, Repr

/-- A task of `watch_workloads`, its channel and what its client has read. -/
structure Watcher where
  phase : WatchPhase
  seen : Nat
  channel : List WatchItem
  received : List WatchItem
  connected : Bool
  deriving DecidableEq

namespace Watcher

/-- `subscribe` at a version of the channel of changes. -/
def subscribed (version : Nat) : Watcher := ⟨.starting, version, [], [], true⟩

def hasRoom (watcher : Watcher) : Bool :=
  watcher.channel.length < watchCapacity

/--
The task up to its next await; nothing while it waits.  The channel of changes
is never closed, since the task holds its manager.
-/
def advance (version : Nat) (state : State) (watcher : Watcher) :
    Option Watcher :=
  match watcher.phase with
  | .starting => some { watcher with phase := .opening state.snapshot }
  | .opening snapshot =>
      if !watcher.connected then some { watcher with phase := .ended }
      else if watcher.hasRoom then
        some
          { watcher with
            phase := .waiting
            channel := watcher.channel ++ [.ok snapshot] }
      else none
  | .waiting =>
      if watcher.seen = version then none
      else some { watcher with phase := .looking, seen := version }
  | .looking => some { watcher with phase := .offering state.snapshot }
  | .offering snapshot =>
      -- `try_send` fails on a full channel and on a closed one
      if watcher.connected ∧ watcher.hasRoom then
        some
          { watcher with
            phase := .waiting
            channel := watcher.channel ++ [.ok snapshot] }
      else some { watcher with phase := .failing }
  | .failing =>
      if !watcher.connected then some { watcher with phase := .ended }
      else if watcher.hasRoom then
        some
          { watcher with
            phase := .ended
            channel := watcher.channel ++ [.error fellBehind] }
      else none
  | .ended => none

/-- The client reads the next item. -/
def receive (watcher : Watcher) : Option Watcher :=
  match watcher.channel with
  | [] => none
  | item :: channel =>
      some
        { watcher with
          channel := channel
          received := watcher.received ++ [item] }

/-- The client drops the stream and what is left on it. -/
def disconnect (watcher : Watcher) : Watcher :=
  { watcher with connected := false, channel := [] }

/-- Everything that was put on the stream. -/
def sent (watcher : Watcher) : List WatchItem :=
  watcher.received ++ watcher.channel

end Watcher

/-! ## Watchers of a world -/

/--
A world with the watchers of its controller, the version of their channel of
changes, and the workloads that were changed silently since the last revision.
-/
structure Watched where
  world : World
  version : Nat
  silent : List String
  watchers : List Watcher
  deriving DecidableEq

inductive WatchEvent where
  | world (event : Event)
  | subscribe
  | advance (index : Nat)
  | receive (index : Nat)
  | disconnect (index : Nat)

namespace Watched

def initial : Watched := ⟨.initial, 0, [], []⟩

def follow (host : Host) (watched : Watched) (event : Event) (next : World) :
    Watched :=
  match watched.world.controller, next.controller with
  | some manager, some after =>
      if after.state.revision = manager.state.revision then
        { watched with
          world := next
          silent :=
            (watched.world.silent host event).toList ++ watched.silent }
      else
        { watched with
          world := next
          version := watched.version + 1
          silent := [] }
  | _, _ => ⟨next, 0, [], []⟩

def stepWatcher (watched : Watched) (index : Nat)
    (change : Watcher → Option Watcher) : Option Watched :=
  (watched.watchers[index]?.bind change).map fun watcher =>
    { watched with watchers := watched.watchers.set index watcher }

def step (host : Host) (watched : Watched) : WatchEvent → Option Watched
  | .world event =>
      (World.step host watched.world event).map (watched.follow host event)
  | .subscribe =>
      watched.world.controller.bind fun manager =>
        if manager.isServing then
          some
            { watched with
              watchers :=
                watched.watchers ++ [.subscribed watched.version] }
        else none
  | .advance index =>
      watched.world.controller.bind fun manager =>
        watched.stepWatcher index (Watcher.advance watched.version manager.state)
  | .receive index => watched.stepWatcher index Watcher.receive
  | .disconnect index =>
      watched.stepWatcher index fun watcher => some watcher.disconnect

/-- The revision can still be raised. -/
def Unsaturated (watched : Watched) (_ : WatchEvent) : Prop :=
  ∀ manager ∈ watched.world.controller, manager.state.revision + 1 < 2 ^ 64

instance (watched : Watched) (event : WatchEvent) :
    Decidable (watched.Unsaturated event) :=
  inferInstanceAs (Decidable (∀ manager ∈ watched.world.controller,
    manager.state.revision + 1 < 2 ^ 64))

end Watched

/-! ## What a snapshot shows -/

namespace WatchWorkloadsResponse

def shown (response : WatchWorkloadsResponse) (id : String) :
    Option Workload :=
  response.workloads.find? fun workload => workload.workloadId = id

end WatchWorkloadsResponse

namespace State

variable {state before after : State} {silent : List String}
  {id : String} {response : WatchWorkloadsResponse}

theorem mem_listWorkloads {workload : Workload} :
    workload ∈ state.listWorkloads ↔
      state.view workload.workloadId = some workload := by
  simp only [listWorkloads, List.mem_map, Prod.exists, view,
    Option.map_eq_some_iff]
  constructor
  · rintro ⟨id, record, hmem, rfl⟩
    exact ⟨record, mem_records.mp hmem, rfl⟩
  · rintro ⟨record, hrecord, hview⟩
    exact ⟨_, record, mem_records.mpr hrecord, hview⟩

theorem view_workloadId {workload : Workload}
    (h : state.view id = some workload) : workload.workloadId = id := by
  obtain ⟨record, -, rfl⟩ := Option.map_eq_some_iff.mp h
  rfl

theorem shown_snapshot (state : State) (id : String) :
    state.snapshot.shown id = state.view id := by
  cases hview : state.view id with
  | none =>
      refine List.find?_eq_none.mpr fun workload hmem hid => ?_
      have hfound := mem_listWorkloads.mp hmem
      rw [of_decide_eq_true hid, hview] at hfound
      cases hfound
  | some workload =>
      have hid := view_workloadId hview
      have hmem : workload ∈ state.listWorkloads :=
        mem_listWorkloads.mpr (by rw [hid]; exact hview)
      have hsome : (state.snapshot.shown id).isSome :=
        List.find?_isSome.mpr ⟨workload, hmem, by simpa using hid⟩
      obtain ⟨found, hfound⟩ := Option.isSome_iff_exists.mp hsome
      have hfoundId : found.workloadId = id := by
        simpa using List.find?_some hfound
      have hfoundView :=
        mem_listWorkloads.mp (List.mem_of_find?_eq_some hfound)
      rw [hfoundId, hview] at hfoundView
      rw [hfound, hfoundView]

/-- The response has the present revision and the present view of every
workload but the silently changed. -/
def Shows (state : State) (silent : List String)
    (response : WatchWorkloadsResponse) : Prop :=
  response.revision = state.revision ∧
    ∀ id, id ∉ silent → response.shown id = state.view id

theorem shows_snapshot (state : State) (silent : List String) :
    state.Shows silent state.snapshot :=
  ⟨rfl, fun id _ => shown_snapshot state id⟩

theorem Shows.keep {id : Option String} (held : before.Shows silent response)
    (kept : Silent id before after) :
    after.Shows (id.toList ++ silent) response := by
  refine ⟨held.1.trans kept.1.symm, fun other hother => ?_⟩
  rw [List.mem_append, not_or, Option.mem_toList] at hother
  rw [held.2 other hother.2]
  exact (kept.2 other hother.1).symm

theorem bump_revision_of_lt (unsaturated : state.revision + 1 < 2 ^ 64) :
    state.bump.revision = state.revision + 1 :=
  saturatingAdd_of_lt unsaturated

end State

/-! ## What a watcher knows -/

namespace Watcher

variable {version : Nat} {state : State} {watcher next : Watcher}
  {Shows : WatchWorkloadsResponse → Prop}

/-- The last snapshot on the stream. -/
def last (watcher : Watcher) : Option WatchWorkloadsResponse :=
  watcher.sent.getLast?.bind Except.toOption

/-- What the task is to the channel of changes, unless it gives up. -/
def reader (watcher : Watcher) : Option (Reader WatchWorkloadsResponse) :=
  if watcher.connected then
    match watcher.phase with
    | .starting | .looking => some ⟨watcher.seen, .looking, watcher.last⟩
    | .opening snapshot | .offering snapshot =>
        some ⟨watcher.seen, .holding snapshot, watcher.last⟩
    | .waiting => some ⟨watcher.seen, .waiting, watcher.last⟩
    | .failing | .ended => none
  else none

/-- A watcher that has not been told everything, or shows it. -/
def Informed (version : Nat) (Shows : WatchWorkloadsResponse → Prop)
    (watcher : Watcher) : Prop :=
  ∀ reader ∈ watcher.reader, reader.Informed version Shows

theorem informed_subscribed : (subscribed version).Informed version Shows := by
  intro reader hreader
  cases hreader
  exact .look version le_rfl

theorem last_push (watcher : Watcher) (snapshot : WatchWorkloadsResponse) :
    Watcher.last
        { watcher with
          phase := .waiting
          channel := watcher.channel ++ [.ok snapshot] } =
      some snapshot := by
  simp [last, sent, ← List.append_assoc, Except.toOption]

theorem connected_advance (advanced : watcher.advance version state = some next) :
    next.connected = watcher.connected := by
  grind [Watcher.advance]

theorem Informed.advance (informed : watcher.Informed version Shows)
    (present : Shows state.snapshot)
    (advanced : watcher.advance version state = some next) :
    next.Informed version Shows := by
  intro reader hreader
  obtain ⟨phase, seen, channel, received, connected⟩ := watcher
  cases connected with
  | false =>
      -- nobody listens, whatever the task does
      have hgone := connected_advance advanced
      rw [Watcher.reader, hgone] at hreader
      cases hreader
  | true =>
      cases phase with
      | starting =>
          cases advanced
          cases hreader
          exact .take (informed _ rfl).told present
      | opening snapshot | offering snapshot =>
          have holding := informed _ rfl
          simp only [Watcher.advance, Bool.not_true, Bool.false_eq_true,
            if_false, true_and] at advanced
          split at advanced
          · cases advanced
            cases hreader
            have hlast := last_push ⟨.waiting, seen, channel, received, true⟩
              snapshot
            rw [hlast]
            exact holding.handOn
          · cases advanced
            try cases hreader
      | waiting =>
          simp only [Watcher.advance] at advanced
          split at advanced
          · cases advanced
          · cases advanced
            cases hreader
            exact .look version le_rfl
      | looking =>
          cases advanced
          cases hreader
          exact .take (informed _ rfl).told present
      | failing =>
          simp only [Watcher.advance, Bool.not_true, Bool.false_eq_true,
            if_false] at advanced
          split at advanced
          · cases advanced
            cases hreader
          · cases advanced
      | ended => cases advanced

theorem Informed.receive (informed : watcher.Informed version Shows)
    (received : watcher.receive = some next) :
    next.Informed version Shows := by
  unfold Watcher.receive at received
  split at received
  · cases received
  · rename_i item channel hchannel
    cases received
    intro reader hreader
    refine informed reader ?_
    simpa [Watcher.reader, last, sent, hchannel] using hreader

theorem Informed.disconnect : watcher.disconnect.Informed version Shows := by
  intro reader hreader
  cases hreader

end Watcher

namespace Watched

variable {host : Host} {watched next : Watched}

/-- Every watcher knows what is shown, and none outlives its controller. -/
structure Sound (watched : Watched) : Prop where
  gone : watched.world.controller = none → watched.watchers = []
  informed : ∀ manager ∈ watched.world.controller,
    ∀ watcher ∈ watched.watchers,
      watcher.Informed watched.version (manager.state.Shows watched.silent)

theorem stepWatcher_some {index : Nat} {change : Watcher → Option Watcher}
    (moved : watched.stepWatcher index change = some next) :
    ∃ watcher ∈ watched.watchers, ∃ after, change watcher = some after ∧
      next = { watched with watchers := watched.watchers.set index after } := by
  obtain ⟨after, hafter, hnext⟩ := Option.map_eq_some_iff.mp moved
  obtain ⟨watcher, hwatcher, hchange⟩ := Option.bind_eq_some_iff.mp hafter
  exact ⟨watcher, List.mem_of_getElem? hwatcher, after, hchange, hnext.symm⟩

theorem Sound.stepWatcher {index : Nat} {change : Watcher → Option Watcher}
    (sound : watched.Sound)
    (keeps : ∀ manager ∈ watched.world.controller, ∀ watcher after,
      watcher.Informed watched.version (manager.state.Shows watched.silent) →
      change watcher = some after →
      after.Informed watched.version (manager.state.Shows watched.silent))
    (moved : watched.stepWatcher index change = some next) : next.Sound := by
  obtain ⟨watcher, hwatcher, after, hchange, rfl⟩ := stepWatcher_some moved
  refine ⟨fun hnone => ?_, fun manager hmanager other hother => ?_⟩
  · rw [sound.gone hnone] at hwatcher
    cases hwatcher
  · rcases List.mem_or_eq_of_mem_set hother with hold | rfl
    · exact sound.informed manager hmanager other hold
    · exact keeps manager hmanager watcher other
        (sound.informed manager hmanager watcher hwatcher) hchange

theorem Sound.follow {event : Event} {after : World} (sound : watched.Sound)
    (unsaturated : watched.Unsaturated (.world event))
    (moved : World.step host watched.world event = some after) :
    (watched.follow host event after).Sound := by
  unfold Watched.follow
  split
  · rename_i manager now hmanager hnow
    have announces := World.step_announces hmanager hnow moved
    split
    · rename_i hrevision
      refine ⟨fun hnone => ?_, fun running hrunning watcher hwatcher => ?_⟩
      · rw [hnow] at hnone
        cases hnone
      · cases hnow.symm.trans hrunning
        have kept : State.Silent (watched.world.silent host event)
            manager.state now.state := by
          refine announces.resolve_left fun announced => ?_
          rw [State.Announced,
            State.bump_revision_of_lt (unsaturated manager hmanager)] at announced
          omega
        intro reader hreader
        exact (sound.informed manager hmanager watcher hwatcher reader
          hreader).keep fun response held => held.keep kept
    · refine ⟨fun hnone => ?_, fun running hrunning watcher hwatcher => ?_⟩
      · rw [hnow] at hnone
        cases hnone
      · intro reader hreader
        exact (sound.informed manager hmanager watcher hwatcher reader
          hreader).announce (Nat.lt_succ_self _)
  · exact ⟨fun _ => rfl, fun _ _ _ hwatcher => by cases hwatcher⟩

theorem Sound.advance {index : Nat} (sound : watched.Sound)
    (moved : watched.step host (.advance index) = some next) : next.Sound := by
  obtain ⟨manager, hmanager, moved⟩ := Option.bind_eq_some_iff.mp moved
  refine sound.stepWatcher ?_ moved
  intro running hrunning watcher after informed advanced
  cases hmanager.symm.trans hrunning
  exact informed.advance (State.shows_snapshot _ _) advanced

theorem Sound.step {event : WatchEvent} (sound : watched.Sound)
    (unsaturated : watched.Unsaturated event)
    (moved : watched.step host event = some next) : next.Sound := by
  cases event with
  | world event =>
      obtain ⟨after, hafter, rfl⟩ := Option.map_eq_some_iff.mp moved
      exact sound.follow unsaturated hafter
  | subscribe =>
      obtain ⟨manager, hmanager, moved⟩ := Option.bind_eq_some_iff.mp moved
      split at moved
      · cases moved
        refine ⟨fun hnone => ?_, fun running hrunning watcher hwatcher => ?_⟩
        · rw [hmanager] at hnone
          cases hnone
        · rcases List.mem_append.mp hwatcher with hold | hnew
          · exact sound.informed running hrunning watcher hold
          · rw [List.mem_singleton.mp hnew]
            exact Watcher.informed_subscribed
      · cases moved
  | advance index => exact sound.advance moved
  | receive index =>
      exact sound.stepWatcher
        (fun _ _ _ _ informed received => informed.receive received) moved
  | disconnect index =>
      refine sound.stepWatcher ?_ moved
      rintro _ _ watcher _ - ⟨⟩
      exact Watcher.Informed.disconnect

theorem run_sound
    (run : Runs (Watched.step host) Unsaturated initial watched) :
    watched.Sound :=
  run.invariant (fun _ _ _ sound unsaturated moved =>
    sound.step unsaturated moved) ⟨fun _ => rfl, fun _ hmanager => by cases hmanager⟩

theorem Sound.current {manager : Manager} {watcher : Watcher}
    (sound : watched.Sound) (running : watched.world.controller = some manager)
    (mem : watcher ∈ watched.watchers) (connected : watcher.connected = true)
    (waiting : watcher.phase = .waiting)
    (told : watcher.seen = watched.version) :
    ∃ response, watcher.sent.getLast? = some (.ok response) ∧
      manager.state.Shows watched.silent response := by
  have hreader :
      watcher.reader = some ⟨watcher.seen, .waiting, watcher.last⟩ := by
    simp [Watcher.reader, connected, waiting]
  obtain ⟨response, hlast, present⟩ :=
    (sound.informed manager running watcher mem _ hreader).present told
  refine ⟨response, ?_, present⟩
  obtain ⟨item, hitem, hresponse⟩ := Option.bind_eq_some_iff.mp hlast
  rw [hitem]
  cases item with
  | error status => cases hresponse
  | ok value =>
      cases hresponse
      rfl

/-- A client whose watcher waits and has been told of every revision has the
present view on its stream, but for what was changed silently. -/
theorem watchers_current {manager : Manager} {watcher : Watcher}
    (run : Runs (Watched.step host) Unsaturated initial watched)
    (running : watched.world.controller = some manager)
    (mem : watcher ∈ watched.watchers) (connected : watcher.connected = true)
    (waiting : watcher.phase = .waiting)
    (told : watcher.seen = watched.version) :
    ∃ response, watcher.sent.getLast? = some (.ok response) ∧
      response.revision = manager.state.revision ∧
      ∀ id, id ∉ watched.silent →
        response.shown id = manager.state.view id :=
  (run_sound run).current running mem connected waiting told

/-! ## A service is started while a client watches -/

def servingSnapshot : WatchWorkloadsResponse :=
  ⟨1, [workloadView "tool" toolRecord none]⟩

def attachedSnapshot : WatchWorkloadsResponse :=
  ⟨4, [workloadView "tool" toolRecord (some runningExecution)]⟩

def toolWatcher (seen : Nat) (channel : List WatchItem) : Watcher :=
  ⟨.waiting, seen, channel, [.ok servingSnapshot], true⟩

/-- The client has read the first snapshot, and its watcher has been told of
nothing since. -/
def untoldWatched : Watched where
  world := attachedWorld
  version := 4
  silent := []
  watchers := [toolWatcher 1 []]

/-- Three revisions later one snapshot is on the stream. -/
def toldWatched : Watched :=
  { untoldWatched with watchers := [toolWatcher 4 [.ok attachedSnapshot]] }

theorem untoldWatched_reachable :
    Runs (Watched.step installation) Unsaturated initial untoldWatched := by
  have executed : executeAdmitted (Watched.step installation) Unsaturated
      initial
      ((startupEvents [toolDefinition]).map WatchEvent.world ++
        [.subscribe, .advance 0, .advance 0, .receive 0] ++
        (startEvents "e1" 7).map WatchEvent.world ++
        [.world (.attach (sampleHello "e1" 7) calm),
          .world (.advance 1 { calm with uuid := "a1" })]) =
      some untoldWatched := by
    decide +kernel
  exact (executeAdmitted_runs executed).2

theorem toldWatched_reachable :
    Runs (Watched.step installation) Unsaturated initial toldWatched := by
  have executed : executeAdmitted (Watched.step installation) Unsaturated
      untoldWatched [.advance 0, .advance 0, .advance 0] =
      some toldWatched := by
    decide +kernel
  exact untoldWatched_reachable.trans (executeAdmitted_runs executed).2

theorem watchers_current_attached :
    ∃ response,
      (toolWatcher 4 [.ok attachedSnapshot]).sent.getLast? =
        some (.ok response) ∧
      response.revision = 4 ∧
      ∀ id, id ∉ ([] : List String) →
        response.shown id = attachedManager.state.view id :=
  watchers_current toldWatched_reachable rfl (List.mem_singleton_self _) rfl rfl
    rfl

end Watched

end Susm.Controller
