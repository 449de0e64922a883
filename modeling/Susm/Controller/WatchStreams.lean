import Susm.Controller.WatchWorkloads

/-!
# What a watcher is sent

The stream of a watcher holds snapshots of the controller in the order in which
they were taken, and an error at most behind them, when a client has left too
many of them unread.  A watcher that has room catches up by itself.
-/

namespace Susm.Controller

open Susm.Foundation

/-! ## One watcher -/

namespace Watcher

variable {version : Nat} {state : State} {watcher next : Watcher}

/-- The snapshot that the task has taken and not sent. -/
def held (watcher : Watcher) : List WatchWorkloadsResponse :=
  match watcher.phase with
  | .opening snapshot | .offering snapshot => [snapshot]
  | _ => []

def snapshots (watcher : Watcher) : List WatchWorkloadsResponse :=
  watcher.sent.filterMap Except.toOption ++ watcher.held

theorem snapshots_advance (advanced : watcher.advance version state = some next) :
    next.snapshots.Sublist (watcher.snapshots ++ [state.snapshot]) := by
  obtain ⟨phase, seen, channel, received, connected⟩ := watcher
  unfold Watcher.advance at advanced
  cases phase with
  | starting | looking =>
      cases advanced
      simp [snapshots, held, sent]
  | opening snapshot | failing =>
      dsimp only at advanced
      split at advanced
      · cases advanced
        simp [snapshots, held, sent]
      · split at advanced
        · cases advanced
          simp [snapshots, held, sent, Except.toOption]
        · cases advanced
  | waiting =>
      dsimp only at advanced
      split at advanced
      · cases advanced
      · cases advanced
        simp [snapshots, held, sent]
  | offering snapshot =>
      dsimp only at advanced
      split at advanced <;> cases advanced <;>
        simp [snapshots, held, sent, Except.toOption]
  | ended => cases advanced

theorem sent_receive (received : watcher.receive = some next) :
    next.sent = watcher.sent ∧ next.phase = watcher.phase ∧
      next.connected = watcher.connected ∧
      next.channel.length + 1 = watcher.channel.length := by
  unfold Watcher.receive at received
  split at received
  · cases received
  · rename_i item channel hchannel
    cases received
    simp [sent, hchannel]

theorem snapshots_receive (received : watcher.receive = some next) :
    next.snapshots = watcher.snapshots := by
  obtain ⟨hsent, hphase, -⟩ := sent_receive received
  simp [snapshots, held, hsent, hphase]

theorem snapshots_disconnect :
    watcher.disconnect.snapshots.Sublist watcher.snapshots := by
  refine List.Sublist.append ?_ (List.Sublist.refl _)
  refine List.Sublist.filterMap _ ?_
  simp [disconnect, sent]

/-- The form of a stream. -/
structure Streams (watcher : Watcher) : Prop where
  room : watcher.channel.length ≤ watchCapacity
  behind : watcher.phase = .failing → watcher.connected = true →
    watchCapacity ≤ watcher.sent.length
  items : ∃ snapshots : List WatchWorkloadsResponse,
    watcher.sent = snapshots.map .ok ∨
      (watcher.sent = snapshots.map .ok ++ [.error fellBehind] ∧
        watcher.phase = .ended ∧ watchCapacity ≤ snapshots.length)

theorem streams_subscribed : (subscribed version).Streams :=
  ⟨Nat.zero_le _, nofun, [], .inl rfl⟩

theorem Streams.items_of_ne (streams : watcher.Streams)
    (going : watcher.phase ≠ .ended) :
    ∃ snapshots : List WatchWorkloadsResponse,
      watcher.sent = snapshots.map .ok := by
  obtain ⟨snapshots, hsent | ⟨-, hended, -⟩⟩ := streams.items
  · exact ⟨snapshots, hsent⟩
  · exact absurd hended going

theorem length_push (room : watcher.hasRoom = true) {item : WatchItem} :
    (watcher.channel ++ [item]).length ≤ watchCapacity := by
  have hlt : watcher.channel.length < watchCapacity := by
    simpa [hasRoom] using room
  simp only [List.length_append, List.length_singleton]
  omega

theorem Streams.push (streams : watcher.Streams)
    (going : watcher.phase ≠ .ended) (room : watcher.hasRoom = true)
    (snapshot : WatchWorkloadsResponse) :
    Streams
      { watcher with
        phase := .waiting
        channel := watcher.channel ++ [.ok snapshot] } := by
  obtain ⟨snapshots, hsent⟩ := streams.items_of_ne going
  refine ⟨length_push room, nofun, snapshots ++ [snapshot], .inl ?_⟩
  · simpa [sent, List.map_append] using
      congrArg (· ++ [Except.ok snapshot]) hsent

theorem Streams.enter (streams : watcher.Streams)
    (going : watcher.phase ≠ .ended) {phase : WatchPhase} {seen : Nat}
    (behind : phase = .failing → watcher.connected = true →
      watchCapacity ≤ watcher.sent.length) :
    Streams { watcher with phase := phase, seen := seen } := by
  obtain ⟨snapshots, hsent⟩ := streams.items_of_ne going
  exact ⟨streams.room, behind, snapshots, .inl hsent⟩

theorem Streams.advance (streams : watcher.Streams)
    (advanced : watcher.advance version state = some next) : next.Streams := by
  cases hphase : watcher.phase with
  | starting | looking =>
      simp only [Watcher.advance, hphase] at advanced
      cases advanced
      exact streams.enter (by simp [hphase]) (by simp)
  | opening snapshot =>
      simp only [Watcher.advance, hphase] at advanced
      split at advanced
      · cases advanced
        exact streams.enter (by simp [hphase]) (by simp)
      · split at advanced
        · rename_i hroom
          cases advanced
          exact streams.push (by simp [hphase]) hroom snapshot
        · cases advanced
  | waiting =>
      simp only [Watcher.advance, hphase] at advanced
      split at advanced
      · cases advanced
      · cases advanced
        exact streams.enter (by simp [hphase]) (by simp)
  | offering snapshot =>
      simp only [Watcher.advance, hphase] at advanced
      split at advanced
      · rename_i hroom
        cases advanced
        exact streams.push (by simp [hphase]) hroom.2 snapshot
      · rename_i hfull
        cases advanced
        refine streams.enter (by simp [hphase]) fun _ connected => ?_
        -- a connected client has left the channel full
        have hroom : ¬watcher.channel.length < watchCapacity := by
          simpa [connected, hasRoom] using hfull
        simp only [sent, List.length_append]
        omega
  | failing =>
      simp only [Watcher.advance, hphase] at advanced
      split at advanced
      · cases advanced
        exact streams.enter (by simp [hphase]) (by simp)
      · rename_i hconnected
        split at advanced
        · rename_i hroom
          cases advanced
          obtain ⟨snapshots, hsent⟩ :=
            streams.items_of_ne (by simp [hphase])
          have hbehind := streams.behind hphase (by simpa using hconnected)
          rw [hsent, List.length_map] at hbehind
          refine ⟨length_push hroom, by simp, snapshots,
            .inr ⟨?_, rfl, hbehind⟩⟩
          simpa [sent] using congrArg (· ++ [Except.error fellBehind]) hsent
        · cases advanced
  | ended =>
      simp only [Watcher.advance, hphase] at advanced
      cases advanced

theorem Streams.receive (streams : watcher.Streams)
    (received : watcher.receive = some next) : next.Streams := by
  obtain ⟨hsent, hphase, hconnected, hlength⟩ := sent_receive received
  obtain ⟨room, behind, items⟩ := streams
  refine ⟨by omega, ?_, ?_⟩
  · rwa [hphase, hconnected, hsent]
  · rwa [hphase, hsent]

theorem Streams.disconnect (streams : watcher.Streams) :
    watcher.disconnect.Streams := by
  refine ⟨Nat.zero_le _, nofun, ?_⟩
  have hprefix : watcher.disconnect.sent <+: watcher.sent := by
    simp [Watcher.disconnect, sent]
  obtain ⟨snapshots, hsent | ⟨hsent, hended, hbehind⟩⟩ := streams.items
  · rw [hsent] at hprefix
    obtain ⟨taken, -, htaken⟩ := List.prefix_map_iff.mp hprefix
    exact ⟨taken, .inl htaken⟩
  · rw [hsent, List.prefix_concat_iff] at hprefix
    rcases hprefix with hall | hprefix
    · exact ⟨snapshots, .inr ⟨hall, hended, hbehind⟩⟩
    · obtain ⟨taken, -, htaken⟩ := List.prefix_map_iff.mp hprefix
      exact ⟨taken, .inl htaken⟩

end Watcher

/-! ## All watchers -/

namespace Watched

variable {host : Host} {watched next : Watched}

/-- The controller was in the state of the snapshot and has gone on since. -/
def WasTaken (host : Host) (watched : Watched)
    (snapshot : WatchWorkloadsResponse) : Prop :=
  ∃ before manager,
    Runs (Watched.step host) (fun _ _ => True) initial before ∧
      Runs (Watched.step host) (fun _ _ => True) before watched ∧
      before.world.controller = some manager ∧
      manager.state.snapshot = snapshot

/-- Every snapshot of a watcher was taken, the later ones later. -/
structure Records (host : Host) (watched : Watched) (revision : Nat)
    (watcher : Watcher) : Prop where
  streams : watcher.Streams
  ordered : watcher.snapshots.Pairwise fun first second =>
    first.revision ≤ second.revision
  reached : ∀ snapshot ∈ watcher.snapshots, snapshot.revision ≤ revision
  taken : ∀ snapshot ∈ watcher.snapshots, WasTaken host watched snapshot

theorem Records.mono {revision later : Nat} {watcher : Watcher}
    (records : Records host watched revision watcher)
    (run : Runs (Watched.step host) (fun _ _ => True) watched next)
    (raised : revision ≤ later) : Records host next later watcher := by
  refine ⟨records.streams, records.ordered,
    fun snapshot hmem => (records.reached snapshot hmem).trans raised,
    fun snapshot hmem => ?_⟩
  obtain ⟨before, manager, start, since, hbefore, hsnapshot⟩ :=
    records.taken snapshot hmem
  exact ⟨before, manager, start, since.trans run, hbefore, hsnapshot⟩

theorem Records.change {manager : Manager} {watcher after : Watcher}
    (records : Records host watched manager.state.revision watcher)
    (reachable : Runs (Watched.step host) (fun _ _ => True) initial watched)
    (running : watched.world.controller = some manager)
    (streams : after.Streams)
    (sublist : after.snapshots.Sublist
      (watcher.snapshots ++ [manager.state.snapshot])) :
    Records host watched manager.state.revision after := by
  have hmem : ∀ snapshot ∈ after.snapshots,
      snapshot ∈ watcher.snapshots ∨ snapshot = manager.state.snapshot := by
    intro snapshot hsnapshot
    simpa using sublist.subset hsnapshot
  refine ⟨streams, List.Pairwise.sublist sublist ?_, ?_, ?_⟩
  · refine List.pairwise_append.mpr
      ⟨records.ordered, List.pairwise_singleton _ _, ?_⟩
    intro first hfirst second hsecond
    rw [List.mem_singleton.mp hsecond]
    exact records.reached first hfirst
  · intro snapshot hsnapshot
    rcases hmem snapshot hsnapshot with hold | rfl
    · exact records.reached snapshot hold
    · exact le_rfl
  · intro snapshot hsnapshot
    rcases hmem snapshot hsnapshot with hold | rfl
    · exact records.taken snapshot hold
    · exact ⟨watched, manager, reachable, Runs.refl, running, rfl⟩

/-- The run so far, and what its watchers have of it. -/
structure Recorded (host : Host) (watched : Watched) : Prop where
  reachable : Runs (Watched.step host) (fun _ _ => True) initial watched
  bounded : ∀ manager ∈ watched.world.controller,
    manager.state.revision < 2 ^ 64
  gone : watched.world.controller = none → watched.watchers = []
  records : ∀ manager ∈ watched.world.controller,
    ∀ watcher ∈ watched.watchers,
      Records host watched manager.state.revision watcher

theorem revision_le {id : Option String} {before after : State}
    (bounded : before.revision < 2 ^ 64)
    (announces : State.Announced before after ∨ State.Silent id before after) :
    before.revision ≤ after.revision ∧ after.revision < 2 ^ 64 := by
  rcases announces with announced | silent
  · simp only [State.Announced, State.bump, saturatingAdd] at announced
    omega
  · rw [silent.1]
    exact ⟨le_rfl, bounded⟩

theorem openManager_revision {session : String} {answers : List Answer}
    {database : Database} {state : State}
    (opened : (openManager host session answers database).2 = some state) :
    state.revision = 0 := by
  obtain ⟨opening, -, rfl⟩ := Option.map_eq_some_iff.mp opened
  rfl

@[simp] theorem follow_world {event : Event} {after : World} :
    (watched.follow host event after).world = after := by
  unfold Watched.follow
  split
  · split <;> rfl
  · rfl

theorem mem_follow {event : Event} {after : World} {watcher : Watcher}
    (mem : watcher ∈ (watched.follow host event after).watchers) :
    watcher ∈ watched.watchers ∧ watched.world.controller.isSome := by
  unfold Watched.follow at mem
  split at mem
  · rename_i manager now hmanager hnow
    rw [hmanager]
    split at mem <;> exact ⟨mem, rfl⟩
  · cases mem

theorem bounded_step {event : Event} {world after : World}
    (bounded : ∀ manager ∈ world.controller, manager.state.revision < 2 ^ 64)
    (moved : World.step host world event = some after) :
    ∀ manager ∈ after.controller, manager.state.revision < 2 ^ 64 := by
  intro manager hmanager
  cases hbefore : world.controller with
  | some previous =>
      exact (revision_le (bounded previous hbefore)
        (World.step_announces hbefore hmanager moved)).2
  | none =>
      cases event with
      | elapse | processExited | controllerExited =>
          cases moved
          simp [hbefore] at hmanager
      | startup session answers =>
          obtain ⟨-, rfl⟩ := World.step_startup moved
          obtain ⟨state, hstate, rfl⟩ := Option.map_eq_some_iff.mp hmanager
          rw [openManager_revision hstate]
          decide
      | command | attach | advance =>
          simp [World.step, hbefore] at moved

theorem gone_step {event : WatchEvent}
    (gone : watched.world.controller = none → watched.watchers = [])
    (moved : watched.step host event = some next) :
    next.world.controller = none → next.watchers = [] := by
  intro hnone
  cases event with
  | world event =>
      obtain ⟨after, hafter, rfl⟩ := Option.map_eq_some_iff.mp moved
      rw [follow_world] at hnone
      unfold Watched.follow
      rw [hnone]
      cases watched.world.controller <;> rfl
  | subscribe =>
      obtain ⟨manager, hmanager, moved⟩ := Option.bind_eq_some_iff.mp moved
      split at moved
      · cases moved
        rw [hmanager] at hnone
        cases hnone
      · cases moved
  | advance index =>
      obtain ⟨manager, hmanager, moved⟩ := Option.bind_eq_some_iff.mp moved
      obtain ⟨watcher, hwatcher, after, -, rfl⟩ := stepWatcher_some moved
      rw [gone hnone] at hwatcher
      cases hwatcher
  | receive index | disconnect index =>
      obtain ⟨watcher, hwatcher, after, -, rfl⟩ := stepWatcher_some moved
      rw [gone hnone] at hwatcher
      cases hwatcher

theorem Recorded.stepWatcher {index : Nat} {change : Watcher → Option Watcher}
    (recorded : Recorded host watched)
    (keeps : ∀ manager ∈ watched.world.controller, ∀ watcher after,
      watcher.Streams → change watcher = some after →
      after.Streams ∧ after.snapshots.Sublist
        (watcher.snapshots ++ [manager.state.snapshot]))
    (moved : watched.stepWatcher index change = some next)
    (run : Runs (Watched.step host) (fun _ _ => True) watched next) :
    ∀ manager ∈ next.world.controller, ∀ watcher ∈ next.watchers,
      Records host next manager.state.revision watcher := by
  obtain ⟨watcher, hwatcher, after, hchange, rfl⟩ := stepWatcher_some moved
  intro manager hmanager other hother
  rcases List.mem_or_eq_of_mem_set hother with hold | rfl
  · exact (recorded.records manager hmanager other hold).mono run le_rfl
  · have records := recorded.records manager hmanager watcher hwatcher
    obtain ⟨streams, sublist⟩ :=
      keeps manager hmanager watcher other records.streams hchange
    exact (records.change recorded.reachable hmanager streams sublist).mono run
      le_rfl

theorem Recorded.step {event : WatchEvent} (recorded : Recorded host watched)
    (moved : watched.step host event = some next) : Recorded host next := by
  have run : Runs (Watched.step host) (fun _ _ => True) watched next :=
    Runs.single trivial moved
  have reachable := recorded.reachable.trans run
  have gone := gone_step recorded.gone moved
  cases event with
  | world event =>
      obtain ⟨after, hafter, rfl⟩ := Option.map_eq_some_iff.mp moved
      refine ⟨reachable, ?_, gone, fun manager hmanager watcher hwatcher => ?_⟩
      · rw [follow_world]
        exact bounded_step recorded.bounded hafter
      · rw [follow_world] at hmanager
        obtain ⟨hmem, hsome⟩ := mem_follow hwatcher
        obtain ⟨before, hbefore⟩ := Option.isSome_iff_exists.mp hsome
        have raised := revision_le (recorded.bounded before hbefore)
          (World.step_announces hbefore hmanager hafter)
        exact (recorded.records before hbefore watcher hmem).mono run raised.1
  | subscribe =>
      obtain ⟨manager, hmanager, moved⟩ := Option.bind_eq_some_iff.mp moved
      split at moved
      · cases moved
        refine ⟨reachable, recorded.bounded, gone,
          fun running hrunning watcher hwatcher => ?_⟩
        rcases List.mem_append.mp hwatcher with hold | hnew
        · exact (recorded.records running hrunning watcher hold).mono run le_rfl
        · rw [List.mem_singleton.mp hnew]
          exact ⟨Watcher.streams_subscribed, List.Pairwise.nil, nofun, nofun⟩
      · cases moved
  | advance index =>
      obtain ⟨manager, hmanager, changed⟩ := Option.bind_eq_some_iff.mp moved
      have records := recorded.stepWatcher ?_ changed run
      · obtain ⟨watcher, -, after, -, rfl⟩ := stepWatcher_some changed
        exact ⟨reachable, recorded.bounded, gone, records⟩
      · intro running hrunning watcher after streams advanced
        cases hmanager.symm.trans hrunning
        exact ⟨streams.advance advanced, Watcher.snapshots_advance advanced⟩
  | receive index =>
      have records := recorded.stepWatcher ?_ moved run
      · obtain ⟨watcher, -, after, -, rfl⟩ := stepWatcher_some moved
        exact ⟨reachable, recorded.bounded, gone, records⟩
      · intro running hrunning watcher after streams received
        refine ⟨streams.receive received, ?_⟩
        rw [Watcher.snapshots_receive received]
        exact List.sublist_append_left _ _
  | disconnect index =>
      have records := recorded.stepWatcher ?_ moved run
      · obtain ⟨watcher, -, after, -, rfl⟩ := stepWatcher_some moved
        exact ⟨reachable, recorded.bounded, gone, records⟩
      · rintro running hrunning watcher after streams ⟨⟩
        exact ⟨streams.disconnect, Watcher.snapshots_disconnect.trans
          (List.sublist_append_left _ _)⟩

theorem run_recorded
    (run : Runs (Watched.step host) (fun _ _ => True) initial watched) :
    Recorded host watched :=
  run.invariant (fun _ _ _ recorded _ moved => recorded.step moved)
    ⟨Runs.refl, (fun _ hmanager => by cases hmanager), fun _ => rfl,
      (fun _ hmanager => by cases hmanager)⟩

/-- What is sent to a client are snapshots that were taken in this order, and
an error behind them when it was left with a full channel. -/
theorem watcher_stream {manager : Manager} {watcher : Watcher}
    (run : Runs (Watched.step host) (fun _ _ => True) initial watched)
    (running : watched.world.controller = some manager)
    (mem : watcher ∈ watched.watchers) :
    watcher.channel.length ≤ watchCapacity ∧
    ∃ snapshots : List WatchWorkloadsResponse,
      (watcher.sent = snapshots.map .ok ∨
        (watcher.sent = snapshots.map .ok ++ [.error fellBehind] ∧
          watcher.phase = .ended ∧ watchCapacity ≤ snapshots.length)) ∧
      (snapshots.Pairwise fun first second =>
        first.revision ≤ second.revision) ∧
      ∀ snapshot ∈ snapshots,
        snapshot.revision ≤ manager.state.revision ∧
          WasTaken host watched snapshot := by
  have records := (run_recorded run).records manager running watcher mem
  obtain ⟨snapshots, items⟩ := records.streams.items
  have hsent : watcher.sent.filterMap Except.toOption = snapshots := by
    have hoks : (snapshots.map Except.ok).filterMap
        (Except.toOption (ε := StreamStatus)) = snapshots := by
      simp [List.filterMap_map, Function.comp_def, Except.toOption]
    rcases items with hsent | ⟨hsent, -, -⟩
    · rw [hsent, hoks]
    · rw [hsent, List.filterMap_append, hoks]
      exact List.append_nil _
  have hsublist : snapshots.Sublist watcher.snapshots := by
    rw [Watcher.snapshots, hsent]
    exact List.sublist_append_left _ _
  exact ⟨records.streams.room, snapshots, items,
    records.ordered.sublist hsublist, fun snapshot hmem =>
      ⟨records.reached snapshot (hsublist.subset hmem),
        records.taken snapshot (hsublist.subset hmem)⟩⟩

theorem watcher_stream_attached :
    1 ≤ watchCapacity ∧
    ∃ snapshots : List WatchWorkloadsResponse,
      ((toolWatcher 4 [.ok attachedSnapshot]).sent = snapshots.map .ok ∨
        ((toolWatcher 4 [.ok attachedSnapshot]).sent =
            snapshots.map .ok ++ [.error fellBehind] ∧
          (toolWatcher 4 [.ok attachedSnapshot]).phase = .ended ∧
          watchCapacity ≤ snapshots.length)) ∧
      (snapshots.Pairwise fun first second =>
        first.revision ≤ second.revision) ∧
      ∀ snapshot ∈ snapshots,
        snapshot.revision ≤ 4 ∧ WasTaken installation toldWatched snapshot :=
  @watcher_stream installation toldWatched attachedManager _
    (toldWatched_reachable.mono fun _ _ _ => trivial) rfl
    (List.mem_singleton_self _)

end Watched

/-! ## Catching up -/

namespace Watcher

variable {version : Nat} {state : State} {watcher after : Watcher}

/-- Steps of the task while nothing else moves. -/
def Advances (version : Nat) (state : State) : Watcher → Watcher → Prop :=
  Relation.ReflTransGen fun before after =>
    before.advance version state = some after

/-- The task waits and has been told everything. -/
structure IsSettled (version : Nat) (watcher : Watcher) : Prop where
  connected : watcher.connected = true
  waiting : watcher.phase = .waiting
  told : watcher.seen = version

theorem advance_offering (version : Nat) (state : State)
    {snapshot : WatchWorkloadsResponse}
    (connected : watcher.connected = true) (room : watcher.hasRoom = true)
    (holds : watcher.phase = .opening snapshot ∨
      watcher.phase = .offering snapshot) :
    watcher.advance version state = some
      { watcher with
        phase := .waiting
        channel := watcher.channel ++ [.ok snapshot] } := by
  rcases holds with hphase | hphase <;>
    simp [Watcher.advance, hphase, connected, room]

theorem settles_waiting (version : Nat) (state : State)
    (connected : watcher.connected = true) (room : watcher.hasRoom = true)
    (waiting : watcher.phase = .waiting) :
    ∃ after, Advances version state watcher after ∧ after.IsSettled version := by
  by_cases told : watcher.seen = version
  · exact ⟨watcher, .refl, connected, waiting, told⟩
  · let looking := { watcher with phase := WatchPhase.looking, seen := version }
    let offering :=
      { looking with phase := WatchPhase.offering state.snapshot }
    have noticed : watcher.advance version state = some looking := by
      simp [Watcher.advance, waiting, told, looking]
    have taken : looking.advance version state = some offering := rfl
    have sends : offering.advance version state = some
        { offering with
          phase := .waiting
          channel := offering.channel ++ [.ok state.snapshot] } :=
      advance_offering version state connected room (.inr rfl)
    exact ⟨_, Relation.ReflTransGen.head noticed
      (Relation.ReflTransGen.head taken (Relation.ReflTransGen.single sends)),
      connected, rfl, rfl⟩

theorem settles_holding (version : Nat) (state : State) (watcher : Watcher)
    {snapshot : WatchWorkloadsResponse}
    (connected : watcher.connected = true)
    (room : watcher.channel.length + 2 ≤ watchCapacity)
    (holds : watcher.phase = .opening snapshot ∨
      watcher.phase = .offering snapshot) :
    ∃ after, Advances version state watcher after ∧ after.IsSettled version := by
  have sends := advance_offering version state connected
    (by simp only [hasRoom, decide_eq_true_eq]; omega) holds
  let sending : Watcher :=
    { watcher with
      phase := .waiting
      channel := watcher.channel ++ [.ok snapshot] }
  have roomLeft : sending.hasRoom = true := by
    simp [hasRoom, sending]
    omega
  obtain ⟨after, hadvances, settled⟩ :
      ∃ after, Advances version state sending after ∧
        after.IsSettled version :=
    settles_waiting version state connected roomLeft rfl
  exact ⟨after, Relation.ReflTransGen.head sends hadvances, settled⟩

/-- A task that has not given up settles, if its channel has room for the
snapshot that it holds and for the next one. -/
theorem settles (version : Nat) (state : State)
    (connected : watcher.connected = true)
    (room : watcher.channel.length + 2 ≤ watchCapacity)
    (going : watcher.phase ≠ .failing ∧ watcher.phase ≠ .ended) :
    ∃ after, Advances version state watcher after ∧ after.IsSettled version := by
  cases hphase : watcher.phase with
  | starting =>
      obtain ⟨after, hadvances, settled⟩ := settles_holding version state
        { watcher with phase := .opening state.snapshot } connected room
        (.inl rfl)
      exact ⟨after, Relation.ReflTransGen.head
        (by simp [Watcher.advance, hphase]) hadvances, settled⟩
  | looking =>
      obtain ⟨after, hadvances, settled⟩ := settles_holding version state
        { watcher with phase := .offering state.snapshot } connected room
        (.inr rfl)
      exact ⟨after, Relation.ReflTransGen.head
        (by simp [Watcher.advance, hphase]) hadvances, settled⟩
  | opening snapshot => exact settles_holding _ _ _ connected room (.inl hphase)
  | offering snapshot => exact settles_holding _ _ _ connected room (.inr hphase)
  | waiting =>
      refine settles_waiting _ _ connected ?_ hphase
      simp only [hasRoom, decide_eq_true_eq]
      omega
  | failing => exact absurd hphase going.1
  | ended => exact absurd hphase going.2

end Watcher

namespace Watched

variable {host : Host} {watched : Watched} {manager : Manager}
  {watcher after : Watcher} {index : Nat}

theorem runs_of_advances (host : Host)
    (running : watched.world.controller = some manager)
    (found : watched.watchers[index]? = some watcher)
    (advances : Watcher.Advances watched.version manager.state watcher after) :
    ∃ next, Runs (Watched.step host) (fun _ event => event = .advance index)
        watched next ∧
      next.world = watched.world ∧ next.version = watched.version ∧
      next.silent = watched.silent ∧ next.watchers[index]? = some after := by
  induction advances with
  | refl => exact ⟨watched, Runs.refl, rfl, rfl, rfl, found⟩
  | @tail before after _ hadvance ih =>
      obtain ⟨middle, run, hworld, hversion, hsilent, hmiddle⟩ := ih
      have moved : middle.step host (.advance index) = some
          { middle with watchers := middle.watchers.set index after } := by
        simp [Watched.step, hworld, running, stepWatcher, hmiddle, hversion,
          hadvance]
      have hlt : index < middle.watchers.length :=
        (List.getElem?_eq_some_iff.mp hmiddle).1
      exact ⟨_, run.tail rfl moved, hworld, hversion, hsilent,
        List.getElem?_set_self hlt⟩

/-- Where the client has left some room, a watcher brings the present view to
its stream by its own steps. -/
theorem watcher_catches_up
    (run : Runs (Watched.step host) Unsaturated initial watched)
    (running : watched.world.controller = some manager)
    (found : watched.watchers[index]? = some watcher)
    (connected : watcher.connected = true)
    (room : watcher.channel.length + 2 ≤ watchCapacity)
    (going : watcher.phase ≠ .failing ∧ watcher.phase ≠ .ended) :
    ∃ next after response,
      Runs (Watched.step host) (fun _ event => event = .advance index)
        watched next ∧
      next.world = watched.world ∧ next.watchers[index]? = some after ∧
      after.sent.getLast? = some (.ok response) ∧
      response.revision = manager.state.revision ∧
      ∀ id, id ∉ watched.silent →
        response.shown id = manager.state.view id := by
  obtain ⟨after, advances, settled⟩ := Watcher.settles watched.version
    manager.state connected room going
  obtain ⟨next, own, hworld, hversion, hsilent, hafter⟩ :=
    runs_of_advances host running found advances
  have sound : next.Sound := by
    refine own.invariant ?_ (run_sound run)
    rintro state _ after sound rfl moved
    exact sound.advance moved
  have hrunning : next.world.controller = some manager := by
    rw [hworld, running]
  obtain ⟨response, hlast, hrevision, hshown⟩ :=
    sound.current hrunning (List.mem_of_getElem? hafter) settled.connected
      settled.waiting (by rw [hversion, settled.told])
  rw [hsilent] at hshown
  exact ⟨next, after, response, own, hworld, hafter, hlast, hrevision, hshown⟩

theorem watcher_catches_up_attached :
    ∃ next after response,
      Runs (Watched.step installation) (fun _ event => event = .advance 0)
        untoldWatched next ∧
      next.world = attachedWorld ∧ next.watchers[0]? = some after ∧
      after.sent.getLast? = some (.ok response) ∧ response.revision = 4 ∧
      ∀ id, id ∉ ([] : List String) →
        response.shown id = attachedManager.state.view id :=
  watcher_catches_up untoldWatched_reachable rfl rfl rfl (by decide)
    (by decide)

end Watched

end Susm.Controller
