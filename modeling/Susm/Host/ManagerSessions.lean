import Susm.Foundation.Transition
import Susm.Host.KeptHosts

/-!
# One manager session for one logon

In every run in which no step starts a controller where a manager session is
forgotten, a logon that stays keeps its manager session, and it gets no
controller after it has ended.  Without that restriction the host forgets.
-/

namespace Susm.Host

open Susm.Foundation

namespace World

/-- The registration of the user, or what the next host makes of the record. -/
def registration (world : World) (sid : Sid) : Registration :=
  world.host.elim (.restored (world.runtime.lookup sid))
    fun host => host.registration sid

def marks (world : World) : Finset Logon :=
  world.forgotten ∪ world.host.elim ∅ HostRpc.endingWindowsSessions

variable {saved : Option RuntimeSession} {sid : Sid} {world next : World}

def view (saved : Option RuntimeSession) (sid : Sid) (world : World) : View :=
  ⟨(Ledger.start saved).after sid world.trace, world.runtime.lookup sid⟩

theorem view_after {happened : List Effect}
    (runtime : next.runtime = happened.foldl Effect.record world.runtime)
    (trace : next.trace = world.trace ++ happened) :
    next.view saved sid = (world.view saved sid).after sid happened := by
  have record : ∀ runtime : OrderedMap Sid RuntimeSession, ∀ ledger,
      (View.mk ledger (runtime.lookup sid)).after sid happened =
        ⟨ledger.after sid happened,
          (happened.foldl Effect.record runtime).lookup sid⟩ := by
    clear runtime trace
    induction happened with
    | nil => exact fun _ _ => rfl
    | cons effect happened ih =>
        intro runtime ledger
        have first : View.observe sid ⟨ledger, runtime.lookup sid⟩ effect =
            ⟨ledger.observe sid effect,
              (Effect.record runtime effect).lookup sid⟩ := by
          rw [Effect.lookup_record]
          rfl
        rw [View.after, List.foldl_cons, first]
        exact ih _ _
  rw [view, view, record, runtime, trace, Ledger.after, List.foldl_append]
  rfl

/-- The observer of one user has nothing to object to. -/
structure Holds (saved : Option RuntimeSession) (sid : Sid) (world : World) :
    Prop where
  admits : (Ledger.start saved).Admits sid world.trace
  kept : (world.registration sid).Kept world.marks (world.view saved sid)

theorem Holds.of_advances {happened : List Effect}
    (holds : world.Holds saved sid)
    (runtime : next.runtime = happened.foldl Effect.record world.runtime)
    (trace : next.trace = world.trace ++ happened)
    (advances : (next.registration sid).Advances sid next.marks
      (world.view saved sid) happened) : next.Holds saved sid := by
  refine ⟨?_, ?_⟩
  · rw [trace, Ledger.admits_append]
    exact ⟨holds.admits, advances.admits⟩
  · rw [view_after runtime trace]
    exact advances.kept

variable {event : Event} {host : HostRpc}

theorem Holds.of_performed {after : Option HostRpc} {effects : List Effect}
    (holds : world.Holds saved sid)
    (advances : ∀ happened,
      happened = Effect.carriedOut event.written effects →
      (after.elim (.restored ((world.view saved sid).after sid
        happened).saved) fun host => host.registration sid).Advances sid
        (happened.foldl Effect.forget
            (world.forgotten ∪ world.lost event.operation) ∪
          after.elim ∅ HostRpc.endingWindowsSessions)
        (world.view saved sid) happened) :
    World.Holds saved sid
      { runtime := (Effect.carriedOut event.written effects).foldl
          Effect.record world.runtime
        host := after
        forgotten := (Effect.carriedOut event.written effects).foldl
          Effect.forget (world.forgotten ∪ world.lost event.operation)
        trace := world.trace ++
          Effect.carriedOut event.written effects } := by
  refine holds.of_advances rfl rfl ?_
  have moved := @view_after saved sid world
    { runtime := (Effect.carriedOut event.written effects).foldl
        Effect.record world.runtime
      host := after
      forgotten := (Effect.carriedOut event.written effects).foldl
        Effect.forget (world.forgotten ∪ world.lost event.operation)
      trace := world.trace ++ Effect.carriedOut event.written effects }
    _ rfl rfl
  have same := congrArg View.saved moved
  have advances := advances _ rfl
  rw [← same] at advances
  exact advances

theorem Holds.kept_host (holds : world.Holds saved sid)
    (running : world.host = some host) :
    (host.registration sid).Kept
      (world.forgotten ∪ host.endingWindowsSessions)
      (world.view saved sid) := by
  have kept := holds.kept
  rw [registration, marks, running] at kept
  exact kept

theorem step_holds (holds : world.Holds saved sid) (sound : world.Sound event)
    (moved : world.step event = some next) : next.Holds saved sid := by
  obtain ⟨⟨after, effects⟩, performed, rfl⟩ := Option.map_eq_some_iff.mp moved
  obtain ⟨operation, written⟩ := event
  apply holds.of_performed
  rintro happened h
  cases operation with
  | start registered input =>
      cases stopped : world.host with
      | some host => simp [perform, stopped] at performed
      | none =>
          have kept := holds.kept
          rw [registration, marks, stopped] at kept
          cases registered with
          | none =>
              simp only [perform, stopped, Option.some_inj, Prod.mk.injEq]
                at performed
              obtain ⟨rfl, rfl⟩ := performed
              have nothing := h.trans Effect.carriedOut_nothing
              subst nothing
              have advances := @Registration.Kept.advances _ sid _ _ kept
              simpa [lost, View.after, view] using advances
          | some registered =>
              simp only [perform, stopped, Option.some_inj, Prod.mk.injEq]
                at performed
              obtain ⟨rfl, rfl⟩ := performed
              have advances := HostRpc.advances_new
                (by simpa using kept) (sound registered rfl) h
              simpa [lost] using advances
  | reconcile input =>
      obtain ⟨host, running, heq⟩ := Option.map_eq_some_iff.mp performed
      cases heq
      have advances := HostRpc.advances_reconcile (holds.kept_host running)
        (sound host running) h
      simpa [lost] using advances
  | registerUser user added read attempt =>
      obtain ⟨host, running, heq⟩ := Option.map_eq_some_iff.mp performed
      cases heq
      have advances := HostRpc.advances_registerUser (holds.kept_host running)
        rfl (fun hadded => sound hadded host running) h
      simpa [lost] using advances
  | endWindowsSession sessionId =>
      obtain ⟨host, running, heq⟩ := Option.map_eq_some_iff.mp performed
      cases heq
      have advances :=
        HostRpc.advances_endWindowsSession (holds.kept_host running) h
      simpa [lost] using advances
  | detachAll =>
      obtain ⟨host, running, heq⟩ := Option.map_eq_some_iff.mp performed
      cases heq
      have part : happened.Sublist host.detachAll.2 :=
        h ▸ Effect.carriedOut_sublist
      have advances :=
        HostRpc.advances_detachAll (holds.kept_host running) part
      have quiet := @Effect.foldl_forget happened
        (world.forgotten ∪ host.endingWindowsSessions)
        fun effect heffect =>
          HostRpc.detachAll_unread effect (part.subset heffect)
      simpa [lost, running, quiet] using advances
  | observed user process =>
      obtain ⟨host, running, heq⟩ := Option.bind_eq_some_iff.mp performed
      obtain ⟨⟨last, done⟩, observed, heq⟩ := Option.map_eq_some_iff.mp heq
      cases heq
      have part : happened.Sublist done := h ▸ Effect.carriedOut_sublist
      have advances := HostRpc.advances_observed (holds.kept_host running)
        observed part
      have quiet := @Effect.foldl_forget happened world.forgotten
        fun effect heffect =>
          HostRpc.observed_unread observed effect (part.subset heffect)
      simpa [lost, quiet] using advances

theorem Holds.start (runtime : OrderedMap Sid RuntimeSession) (sid : Sid) :
    World.Holds (runtime.lookup sid) sid ⟨runtime, none, ∅, []⟩ := by
  refine ⟨trivial, ⟨Finset.empty_subset _, ?_⟩, nofun, nofun⟩
  intro logon id known _
  change ((runtime.lookup sid).bind _).bind _ = _ at known
  obtain ⟨binding, held, same⟩ := Option.bind_eq_some_iff.mp known
  obtain ⟨session, hsession, hbinding⟩ := Option.bind_eq_some_iff.mp held
  split at same <;> cases same
  rename_i hlogon
  subst hlogon
  refine ⟨?_, session, hsession, hbinding⟩
  change (Registration.restored (runtime.lookup sid)).binding = _
  rw [Registration.restored_binding]
  exact held

/-- One logon keeps one manager session. -/
theorem oneSession (runtime : OrderedMap Sid RuntimeSession) {last : World}
    (run : Runs World.step World.Sound ⟨runtime, none, ∅, []⟩ last)
    (sid : Sid) :
    (Ledger.start (runtime.lookup sid)).Admits sid last.trace :=
  (run.invariant (fun _ _ _ holds sound moved =>
    step_holds holds sound moved) (Holds.start runtime sid)).admits

/-! ## A logon that is kept, and three that are not -/

def stoppedHost : OrderedMap Sid RuntimeSession :=
  .insert .empty "S-1-5-21-1" (.of "one" ⟨1, 100⟩ (some ⟨11, 1⟩))

def oneLogon : List SessionInfo :=
  [⟨1, .active, some ⟨some "S-1-5-21-1", some 100⟩⟩]

def reconciling (entries : Option (List SessionInfo)) (attempt : Attempt) :
    Reconciliation :=
  ⟨entries, some ["S-1-5-21-1"], fun _ => attempt⟩

def adopting : List Event :=
  [⟨.start (some ["S-1-5-21-1"]) (reconciling oneLogon
      { HostRpc.launching with existing := true }), [true, false]⟩,
    ⟨.endWindowsSession 1, []⟩,
    ⟨.reconcile (reconciling oneLogon HostRpc.launching), []⟩]

theorem oneSession_adopting :
    (Ledger.start (stoppedHost.lookup "S-1-5-21-1")).Admits "S-1-5-21-1"
      ((execute step ⟨stoppedHost, none, ∅, []⟩ adopting).getD
        ⟨stoppedHost, none, ∅, []⟩).trace :=
  oneSession stoppedHost (executeAdmitted_getD_runs (by decide)) "S-1-5-21-1"

def registeringAgain : List Event :=
  [⟨.start (some ["S-1-5-21-1"]) (reconciling none HostRpc.launching), []⟩,
    ⟨.registerUser "S-1-5-21-1" true oneLogon HostRpc.launching, []⟩]

def replacing : List Event :=
  [⟨.start (some ["S-1-5-21-1"]) (reconciling oneLogon
      { HostRpc.launching with existing := true }), []⟩,
    ⟨.endWindowsSession 1, []⟩,
    ⟨.detachAll, []⟩,
    ⟨.start (some ["S-1-5-21-1"]) (reconciling oneLogon HostRpc.launching),
      []⟩]

/-- The first controller is launched, but its runner is not. -/
def unattended : List Event :=
  [⟨.start (some ["S-1-5-21-1"]) (reconciling oneLogon
      { HostRpc.launching with spawned := false }), []⟩,
    ⟨.reconcile (reconciling oneLogon
      { HostRpc.launching with uuid := ⟨"three", nofun⟩ }), []⟩]

/-- Everything that happens in a run, if it is possible. -/
def traceOf (runtime : OrderedMap Sid RuntimeSession)
    (events : List Event) : List Effect :=
  (execute step ⟨runtime, none, ∅, []⟩ events).elim [] World.trace

theorem oneSession_fails :
    ¬ (Ledger.start (stoppedHost.lookup "S-1-5-21-1")).Admits "S-1-5-21-1"
        (traceOf stoppedHost registeringAgain) ∧
      ¬ (Ledger.start (stoppedHost.lookup "S-1-5-21-1")).Admits "S-1-5-21-1"
        (traceOf stoppedHost replacing) ∧
      ¬ (Ledger.start none).Admits "S-1-5-21-1"
        (traceOf .empty unattended) := by
  decide

end World

end Susm.Host
