import Susm.Host.HostRpc

/-!
# Reconciliation

One reconciliation ends what does not fit the sessions of the machine, and the
next one starts what is missing then.  After two there is nothing left to do.
-/

namespace Susm.Host

open Susm.Foundation

structure Attempt.Succeeds (attempt : Attempt) : Prop where
  endingEvent : attempt.endingEvent = true
  duplicated : attempt.duplicated = true
  localAppData : attempt.localAppData = true
  selected : attempt.selected = true
  process : attempt.process.isSome
  spawned : attempt.spawned = true

namespace ControllerRunner

variable {sid : Sid} {logon : Logon} {managerSessionId : String}
  {adopted : Option ProcessIdentity} {attempt : Attempt}

theorem fromToken_cases :
    fromToken sid logon managerSessionId adopted attempt = (none, []) ∨
      ∃ initial, fromToken sid logon managerSessionId adopted attempt =
        observed sid logon managerSessionId initial attempt := by
  unfold fromToken
  split
  · exact .inl rfl
  split
  · exact .inr ⟨_, rfl⟩
  split
  · exact .inr ⟨_, rfl⟩
  · exact .inl rfl

theorem fromToken_succeeds (succeeds : attempt.Succeeds) :
    ∃ initial, (fromToken sid logon managerSessionId adopted attempt).1 =
      some ⟨managerSessionId, logon, initial⟩ := by
  simp only [fromToken, succeeds.duplicated, succeeds.localAppData,
    succeeds.selected, Bool.true_eq_false, or_self, if_false, if_true]
  split <;> exact ⟨_, if_pos succeeds.spawned⟩

end ControllerRunner

namespace Registration

variable {registration : Registration} {sid : Sid} {logon : Logon}
  {session : Option Logon} {conflict : Bool} {attempt : Attempt}

def Bound (logon : Logon) (registration : Registration) : Prop :=
  registration.windowsSessionId = some logon.sessionId ∧
    registration.authenticationId = some logon.authenticationId

instance (logon : Logon) (registration : Registration) :
    Decidable (registration.Bound logon) :=
  inferInstanceAs (Decidable (_ ∧ _))

theorem Bound.unique {other : Logon} (bound : registration.Bound logon)
    (also : registration.Bound other) : logon = other := by
  have sessionId := Option.some_inj.mp (bound.1.symm.trans also.1)
  have authenticationId := Option.some_inj.mp (bound.2.symm.trans also.2)
  cases logon
  cases other
  cases sessionId
  cases authenticationId
  rfl

def Coherent (registration : Registration) : Prop :=
  ∀ runner, registration.runner = some runner →
    runner.managerSessionId = registration.managerSessionId ∧
      registration.Bound runner.logon

structure Serves (session : Option Logon) (registration : Registration) :
    Prop where
  runner : registration.runner.isSome ↔ session.isSome
  bound : ∀ logon, session = some logon → registration.Bound logon

theorem launch_succeeds (succeeds : attempt.Succeeds) :
    ∃ initial, (registration.launch sid logon attempt).1 =
      { registration with recordedProcess := none }.started
        (registration.nextId attempt) logon
        ⟨registration.nextId attempt, logon, initial⟩ := by
  obtain ⟨initial, made⟩ := @ControllerRunner.fromToken_succeeds sid logon
    (registration.nextId attempt) registration.recordedProcess _ succeeds
  refine ⟨initial, ?_⟩
  simp only [launch, succeeds.endingEvent, Bool.true_eq_false, if_false]
  split
  · rename_i effects h
    rw [h] at made
    cases made
  · rename_i runner effects h
    rw [h] at made
    cases made
    rfl

theorem forgetPrevious_bound (bound : registration.Bound logon) :
    registration.forgetPrevious sid logon attempt = (registration, []) :=
  if_pos bound.2

theorem start_eq (windows : parsesWindows sid = true) :
    registration.start sid logon attempt =
      (((registration.forgetPrevious sid logon attempt).1.launch sid logon
        attempt).1,
      (registration.forgetPrevious sid logon attempt).2 ++
        ((registration.forgetPrevious sid logon attempt).1.launch sid logon
          attempt).2) :=
  if_pos windows

theorem start_succeeds (windows : parsesWindows sid = true)
    (succeeds : attempt.Succeeds) :
    ((registration.start sid logon attempt).1.Serves (some logon) ∧
      (registration.start sid logon attempt).1.Coherent) ∧
    (registration.Bound logon → registration.managerSessionId ≠ "" →
      (registration.start sid logon attempt).1.managerSessionId =
        registration.managerSessionId) := by
  obtain ⟨initial, launched⟩ := @launch_succeeds
    (registration.forgetPrevious sid logon attempt).1 sid logon _ succeeds
  rw [start_eq windows, launched]
  refine ⟨⟨⟨by simp [Registration.started], ?_⟩, ?_⟩, ?_⟩
  · rintro _ ⟨⟩
    exact ⟨rfl, rfl⟩
  · rintro _ ⟨⟩
    exact ⟨rfl, rfl, rfl⟩
  · intro bound named
    rw [forgetPrevious_bound bound]
    exact if_neg named

/-! ## One user -/

section

variable (free : registration.sessionConflict = false)

theorem settle_conflict (conflict : registration.sessionConflict = true) :
    registration.settle sid session attempt =
      (registration, registration.persistRuntime sid) :=
  if_pos conflict

include free

theorem settle_absent (idle : registration.runner.isSome = false) :
    registration.settle sid none attempt = (registration, []) := by
  simp [settle, free, idle]

theorem settle_start (idle : registration.runner.isSome = false) :
    registration.settle sid (some logon) attempt =
      registration.start sid logon attempt := by
  simp [settle, free, idle]

theorem settle_bound (runs : registration.runner.isSome = true)
    (bound : registration.Bound logon) :
    registration.settle sid (some logon) attempt =
      (registration, registration.persistRuntime sid) := by
  simp [settle, free, runs, bound.1, bound.2]

theorem settle_end (runs : registration.runner.isSome = true)
    (unbound : ∀ logon, session = some logon → ¬ registration.Bound logon) :
    registration.settle sid session attempt =
      registration.endRegistration sid := by
  simp only [settle, free, runs, Bool.false_eq_true, if_false]
  cases session with
  | none => rfl
  | some logon => exact if_neg (unbound logon rfl)

end

theorem endRegistration_coherent :
    (registration.endRegistration sid).1.Coherent := by
  rintro _ ⟨⟩

/-- What one reconciliation achieves for a user without a conflict. -/
structure Approaches (session : Option Logon) (before after : Registration) :
    Prop where
  serves : after.Serves session ∨ after.runner = none
  coherent : before.Coherent → after.Coherent
  kept : ∀ logon, session = some logon → before.Bound logon →
    before.managerSessionId ≠ "" → after.Bound logon ∧
      after.managerSessionId = before.managerSessionId
  ready : before.Serves session ∨ before.runner = none → after.Serves session

theorem settle_approaches (free : registration.sessionConflict = false)
    (launches : session.isSome → parsesWindows sid = true ∧ attempt.Succeeds) :
    Approaches session registration
      (registration.settle sid session attempt).1 := by
  cases hrunner : registration.runner.isSome with
  | false =>
      have idle : registration.runner = none :=
        Option.not_isSome_iff_eq_none.mp (by simp [hrunner])
      cases session with
      | none =>
          rw [settle_absent free hrunner]
          have serves : registration.Serves none := ⟨by simp [hrunner], nofun⟩
          exact ⟨.inl serves, id, nofun, fun _ => serves⟩
      | some logon =>
          obtain ⟨windows, succeeds⟩ := launches rfl
          obtain ⟨⟨serves, coherent⟩, kept⟩ :=
            @start_succeeds registration _ logon _ windows succeeds
          rw [settle_start free hrunner]
          refine ⟨.inl serves, fun _ => coherent, ?_, fun _ => serves⟩
          rintro _ ⟨⟩ bound named
          exact ⟨serves.bound _ rfl, kept bound named⟩
  | true =>
      by_cases fits : ∃ logon, session = some logon ∧ registration.Bound logon
      · obtain ⟨logon, rfl, bound⟩ := fits
        have serves : registration.Serves (some logon) := by
          refine ⟨by simp [hrunner], ?_⟩
          rintro _ ⟨⟩
          exact bound
        rw [settle_bound free hrunner bound]
        exact ⟨.inl serves, id, fun _ _ held _ => ⟨held, rfl⟩, fun _ => serves⟩
      · have unbound : ∀ logon, session = some logon →
            ¬ registration.Bound logon :=
          fun logon h bound => fits ⟨logon, h, bound⟩
        rw [settle_end free hrunner unbound]
        refine ⟨.inr rfl, fun _ => endRegistration_coherent, ?_, ?_⟩
        · exact fun logon h bound => absurd bound (unbound logon h)
        · rintro (serves | idle)
          · cases session with
            | none => exact absurd (serves.runner.mp hrunner) (by simp)
            | some logon =>
                exact absurd (serves.bound logon rfl) (unbound logon rfl)
          · simp [idle] at hrunner

theorem launch_sessionConflict :
    (registration.launch sid logon attempt).1.sessionConflict =
      registration.sessionConflict := by
  simp only [launch]
  split
  · rfl
  split <;> rfl

theorem start_sessionConflict :
    (registration.start sid logon attempt).1.sessionConflict =
      registration.sessionConflict := by
  by_cases windows : parsesWindows sid = true
  · rw [start_eq windows, launch_sessionConflict, forgetPrevious]
    split <;> rfl
  · rw [start, if_neg windows]

theorem settle_sessionConflict :
    (registration.settle sid session attempt).1.sessionConflict =
      registration.sessionConflict := by
  unfold settle
  split
  · rfl
  split
  · exact start_sessionConflict
  · rfl
  · split <;> rfl
  · rfl

theorem settle_quiet
    (serves : registration.sessionConflict = false →
      registration.Serves session) :
    (registration.settle sid session attempt).1 = registration ∧
      ∀ effect ∈ (registration.settle sid session attempt).2,
        ∃ record, effect = .saved sid record := by
  have persists : ∀ effect ∈ registration.persistRuntime sid,
      ∃ record, effect = .saved sid record := by
    intro effect h
    obtain ⟨record, -, rfl⟩ := List.mem_map.mp h
    exact ⟨record, rfl⟩
  cases free : registration.sessionConflict with
  | true =>
      rw [settle_conflict free]
      exact ⟨rfl, persists⟩
  | false =>
      have fits := serves free
      cases session with
      | none =>
          have idle : registration.runner.isSome = false := by
            simpa using fits.runner
          rw [settle_absent free idle]
          exact ⟨rfl, List.forall_mem_nil _⟩
      | some logon =>
          rw [settle_bound free (fits.runner.mpr rfl) (fits.bound logon rfl)]
          exact ⟨rfl, persists⟩

end Registration

/-! ## All users -/

namespace HostRpc

variable {host : HostRpc} {entries : List SessionInfo}
  {registered : List Sid} {attempts : Sid → Attempt} {sid : Sid}

theorem lookup_known {controllers : OrderedMap Sid Registration} :
    (known registered controllers).lookup sid =
      if sid ∈ registered then some ((controllers.lookup sid).getD .empty)
      else none := by
  rw [known, OrderedMap.lookup_foldl_insertMissing, OrderedMap.lookup_retain]
  by_cases h : sid ∈ registered
  · cases controllers.lookup sid <;> simp [h, Option.filter]
  · cases controllers.lookup sid <;> simp [h, Option.filter]

theorem session_remembered {ending : Finset Logon} :
    session (activeSessions entries)
        (ending.filter (· ∈ (activeSessions entries).logons)) sid =
      session (activeSessions entries) ending sid := by
  unfold session
  cases found : (activeSessions entries).sessions.lookup sid with
  | none => rfl
  | some logon =>
      have listed := mem_logons_iff.mpr ⟨sid, mem_users_of_session found⟩
      simp [listed, Option.filter]

def found (entries : List SessionInfo) (host : HostRpc) (sid : Sid) :
    Registration :=
  { (host.controllers.lookup sid).getD .empty with
    sessionConflict := sid ∈ (activeSessions entries).conflicts }

def settled (entries : List SessionInfo) (attempts : Sid → Attempt)
    (host : HostRpc) (sid : Sid) : Registration × List Effect :=
  (host.found entries sid).settle sid
    (session (activeSessions entries) host.endingWindowsSessions sid)
    (attempts sid)

theorem lookup_reconcile :
    (host.reconcile
        ⟨some entries, some registered, attempts⟩).1.controllers.lookup sid =
      if sid ∈ registered then some (host.settled entries attempts sid).1
      else none := by
  simp only [reconcile, OrderedMap.lookup_mapValues, lookup_known]
  split
  · simp only [Option.map_some, visit, session_remembered, settled, found]
  · rfl

theorem ending_reconcile :
    (host.reconcile
        ⟨some entries, some registered, attempts⟩).1.endingWindowsSessions =
      host.endingWindowsSessions.filter
        (· ∈ (activeSessions entries).logons) := rfl

theorem mem_reconcile_effects {effect : Effect}
    (h : effect ∈ (host.reconcile
      ⟨some entries, some registered, attempts⟩).2) :
    effect = .sampled (users entries) ∨ effect = .listed registered ∨
      ∃ sid ∈ registered, effect ∈ (host.settled entries attempts sid).2 := by
  simp only [reconcile, List.mem_cons, List.mem_flatMap] at h
  rcases h with h | h | ⟨⟨sid, registration⟩, hmem, h⟩
  · exact .inl h
  · exact .inr (.inl h)
  · have found := OrderedMap.lookup_eq_some_iff.mpr hmem
    rw [lookup_known] at found
    split at found
    · rename_i listed
      cases found
      rw [visit, session_remembered] at h
      exact .inr (.inr ⟨sid, listed, h⟩)
    · cases found

theorem found_reconcile (listed : sid ∈ registered) :
    (host.reconcile ⟨some entries, some registered, attempts⟩).1.found entries
      sid = (host.settled entries attempts sid).1 := by
  have conflict : (host.settled entries attempts sid).1.sessionConflict =
      decide (sid ∈ (activeSessions entries).conflicts) :=
    Registration.settle_sessionConflict
  rw [found, lookup_reconcile, if_pos listed, Option.getD_some, ← conflict]

theorem settled_reconcile {next : Sid → Attempt} (listed : sid ∈ registered) :
    (host.reconcile ⟨some entries, some registered, attempts⟩).1.settled
        entries next sid =
      (host.settled entries attempts sid).1.settle sid
        (session (activeSessions entries) host.endingWindowsSessions sid)
        (next sid) := by
  rw [settled, found_reconcile listed, ending_reconcile, session_remembered]

end HostRpc

/-- Whoever has a session that does not end can be given a controller. -/
def LaunchesSucceed (entries : List SessionInfo) (ending : Finset Logon)
    (registered : List Sid) (attempts : Sid → Attempt) : Prop :=
  ∀ sid ∈ registered, sid ∉ (activeSessions entries).conflicts →
    (HostRpc.session (activeSessions entries) ending sid).isSome →
      parsesWindows sid = true ∧ (attempts sid).Succeeds

/-- The host has become what the sessions and the registered users ask for. -/
structure Converged (entries : List SessionInfo) (registered : List Sid)
    (before after : HostRpc) : Prop where
  registered : ∀ sid,
    (after.controllers.lookup sid).isSome ↔ sid ∈ registered
  serves : ∀ sid registration,
    after.controllers.lookup sid = some registration →
    sid ∉ (activeSessions entries).conflicts →
    registration.Serves (HostRpc.session (activeSessions entries)
      before.endingWindowsSessions sid)
  /-- The runner itself is bound to the logon. -/
  runner : ∀ sid registration runner logon,
    after.controllers.lookup sid = some registration →
    sid ∉ (activeSessions entries).conflicts →
    (∀ old, before.controllers.lookup sid = some old → old.Coherent) →
    registration.runner = some runner →
    HostRpc.session (activeSessions entries) before.endingWindowsSessions
      sid = some logon → runner.logon = logon
  kept : ∀ sid old new logon, before.controllers.lookup sid = some old →
    after.controllers.lookup sid = some new →
    sid ∉ (activeSessions entries).conflicts →
    HostRpc.session (activeSessions entries) before.endingWindowsSessions
      sid = some logon →
    old.Bound logon → old.managerSessionId ≠ "" →
    new.managerSessionId = old.managerSessionId

/-- Neither is anything started, nor ended, nor signaled. -/
def Effect.isQuiet : Effect → Bool
  | .sampled _ | .listed _ | .saved .. => true
  | _ => false

namespace HostRpc

variable {host : HostRpc} {entries : List SessionInfo}
  {registered : List Sid} {one two : Sid → Attempt} {sid : Sid}

theorem lookup_twice (listed : sid ∈ registered) :
    ((host.reconcile ⟨some entries, some registered, one⟩).1.reconcile
        ⟨some entries, some registered, two⟩).1.controllers.lookup sid =
      some ((host.settled entries one sid).1.settle sid
        (session (activeSessions entries) host.endingWindowsSessions sid)
        (two sid)).1 := by
  rw [lookup_reconcile, if_pos listed, settled_reconcile listed]

section

variable (listed : sid ∈ registered)
  (free : sid ∉ (activeSessions entries).conflicts)

include listed free

theorem settled_approaches (first : LaunchesSucceed entries
    host.endingWindowsSessions registered one) :
    Registration.Approaches
      (session (activeSessions entries) host.endingWindowsSessions sid)
      (host.found entries sid) (host.settled entries one sid).1 :=
  Registration.settle_approaches (decide_eq_false free)
    (first sid listed free)

theorem twice_approaches (second : LaunchesSucceed entries
    host.endingWindowsSessions registered two) :
    Registration.Approaches
      (session (activeSessions entries) host.endingWindowsSessions sid)
      (host.settled entries one sid).1
      ((host.settled entries one sid).1.settle sid
        (session (activeSessions entries) host.endingWindowsSessions sid)
        (two sid)).1 := by
  refine Registration.settle_approaches ?_ (second sid listed free)
  rw [settled, Registration.settle_sessionConflict]
  exact decide_eq_false free

end

theorem found_coherent (coherent : ∀ old,
    host.controllers.lookup sid = some old → old.Coherent) :
    (host.found entries sid).Coherent := by
  intro runner h
  cases held : host.controllers.lookup sid with
  | none => simp [found, held, Registration.empty] at h
  | some old =>
      have kept := coherent old held runner
      simp only [found, held, Option.getD_some] at h ⊢
      exact kept h

theorem mem_of_lookup_reconcile {registration : Registration}
    (held : (host.reconcile
        ⟨some entries, some registered, one⟩).1.controllers.lookup sid =
      some registration) : sid ∈ registered := by
  rw [lookup_reconcile] at held
  split at held
  · assumption
  · cases held

section

variable {registration : Registration}
  (first : LaunchesSucceed entries host.endingWindowsSessions registered one)
  (second : LaunchesSucceed entries host.endingWindowsSessions registered two)
  (held : ((host.reconcile
      ⟨some entries, some registered, one⟩).1.reconcile
        ⟨some entries, some registered, two⟩).1.controllers.lookup sid =
    some registration)
  (free : sid ∉ (activeSessions entries).conflicts)

include first second held free

theorem approaches_of_lookup_twice :
    ∃ between, Registration.Approaches
        (session (activeSessions entries) host.endingWindowsSessions sid)
        (host.found entries sid) between ∧
      Registration.Approaches
        (session (activeSessions entries) host.endingWindowsSessions sid)
        between registration := by
  have listed := mem_of_lookup_reconcile held
  cases (lookup_twice listed).symm.trans held
  exact ⟨_, settled_approaches listed free first,
    twice_approaches listed free second⟩

theorem serves_of_lookup_twice :
    registration.Serves (session (activeSessions entries)
      host.endingWindowsSessions sid) := by
  obtain ⟨between, towards, arrives⟩ :=
    approaches_of_lookup_twice first second held free
  exact arrives.ready towards.serves

theorem runner_of_lookup_twice {runner : ControllerRunner} {logon : Logon}
    (coherent : ∀ old, host.controllers.lookup sid = some old → old.Coherent)
    (runs : registration.runner = some runner)
    (asked : session (activeSessions entries) host.endingWindowsSessions sid =
      some logon) : runner.logon = logon := by
  obtain ⟨between, towards, arrives⟩ :=
    approaches_of_lookup_twice first second held free
  have serves := serves_of_lookup_twice first second held free
  have kept := arrives.coherent (towards.coherent (found_coherent coherent))
  exact (kept runner runs).2.unique (serves.bound logon asked)

theorem kept_of_lookup_twice {old : Registration} {logon : Logon}
    (before : host.controllers.lookup sid = some old)
    (asked : session (activeSessions entries) host.endingWindowsSessions sid =
      some logon)
    (bound : old.Bound logon) (named : old.managerSessionId ≠ "") :
    registration.managerSessionId = old.managerSessionId := by
  obtain ⟨between, towards, arrives⟩ :=
    approaches_of_lookup_twice first second held free
  have same : host.found entries sid = { old with
      sessionConflict := sid ∈ (activeSessions entries).conflicts } := by
    rw [found, before, Option.getD_some]
  have once := towards.kept logon asked (by rw [same]; exact bound)
    (by rw [same]; exact named)
  rw [same] at once
  have again := arrives.kept logon asked once.1
    (fun h => named (once.2.symm.trans h))
  exact again.2.trans once.2

end

theorem settled_quiet {three : Sid → Attempt} (listed : sid ∈ registered)
    (first : LaunchesSucceed entries host.endingWindowsSessions registered
      one)
    (second : LaunchesSucceed entries host.endingWindowsSessions registered
      two) :
    let after := ((host.reconcile
      ⟨some entries, some registered, one⟩).1.reconcile
        ⟨some entries, some registered, two⟩).1
    some (after.settled entries three sid).1 =
        after.controllers.lookup sid ∧
      ∀ effect ∈ (after.settled entries three sid).2,
        ∃ record, effect = .saved sid record := by
  intro after
  have held := @lookup_twice host entries registered one two sid listed
  have flag : ((host.settled entries one sid).1.settle sid
      (session (activeSessions entries) host.endingWindowsSessions sid)
      (two sid)).1.sessionConflict =
        decide (sid ∈ (activeSessions entries).conflicts) := by
    rw [Registration.settle_sessionConflict, settled,
      Registration.settle_sessionConflict]
    rfl
  have still := @Registration.settle_quiet _ sid
    (session (activeSessions entries) host.endingWindowsSessions sid)
    (three sid) fun free => serves_of_lookup_twice first second held
      (of_decide_eq_false (flag.symm.trans free))
  rw [settled_reconcile listed, settled_reconcile listed, ending_reconcile,
    session_remembered]
  exact ⟨(congrArg some still.1).trans held.symm, still.2⟩

theorem reconcile_converges (host : HostRpc) (entries : List SessionInfo)
    (registered : List Sid) (one two three : Sid → Attempt)
    (first : LaunchesSucceed entries host.endingWindowsSessions registered
      one)
    (second : LaunchesSucceed entries host.endingWindowsSessions registered
      two) :
    let after := ((host.reconcile
      ⟨some entries, some registered, one⟩).1.reconcile
        ⟨some entries, some registered, two⟩).1
    let third := after.reconcile ⟨some entries, some registered, three⟩
    Converged entries registered host after ∧
      (∀ effect ∈ third.2, effect.isQuiet = true) ∧
      ∀ sid, third.1.controllers.lookup sid =
        after.controllers.lookup sid := by
  intro after third
  refine ⟨⟨?_, ?_, ?_, ?_⟩, ?_, ?_⟩
  · intro sid
    constructor
    · intro h
      obtain ⟨registration, held⟩ := Option.isSome_iff_exists.mp h
      exact mem_of_lookup_reconcile held
    · intro listed
      rw [lookup_twice listed]
      rfl
  · intro sid registration held free
    exact serves_of_lookup_twice first second held free
  · intro sid registration runner logon held free coherent runs asked
    exact runner_of_lookup_twice first second held free coherent runs asked
  · intro sid old new logon before held free asked bound named
    exact kept_of_lookup_twice first second held free before asked bound named
  · intro effect h
    rcases mem_reconcile_effects h with rfl | rfl | ⟨sid, listed, h⟩
    · rfl
    · rfl
    · obtain ⟨record, rfl⟩ := (settled_quiet listed first second).2 effect h
      rfl
  · intro sid
    rw [lookup_reconcile]
    split
    · rename_i listed
      exact (settled_quiet listed first second).1
    · rename_i unlisted
      exact (lookup_reconcile.trans (if_neg unlisted)).symm

def loggedOnAgain : HostRpc where
  controllers := OrderedMap.empty.insert "S-1-5-21-1"
    (Registration.empty.started "one" ⟨1, 100⟩
      ⟨"one", ⟨1, 100⟩, some ⟨11, 1⟩⟩)
  endingWindowsSessions := ∅

def secondLogon : List SessionInfo :=
  [⟨2, .active, some ⟨some "S-1-5-21-1", some 200⟩⟩]

def launching : Attempt where
  previousEvent := true
  uuid := ⟨"two", nofun⟩
  endingEvent := true
  duplicated := true
  localAppData := true
  existing := false
  selected := true
  process := some ⟨22, 2⟩
  spawned := true

theorem reconcile_converges_loggedOnAgain :
    let after := ((loggedOnAgain.reconcile
      ⟨some secondLogon, some ["S-1-5-21-1"], fun _ => launching⟩).1.reconcile
        ⟨some secondLogon, some ["S-1-5-21-1"], fun _ => launching⟩).1
    let third := after.reconcile
      ⟨some secondLogon, some ["S-1-5-21-1"], fun _ => launching⟩
    Converged secondLogon ["S-1-5-21-1"] loggedOnAgain after ∧
      (∀ effect ∈ third.2, effect.isQuiet = true) ∧
      ∀ sid, third.1.controllers.lookup sid =
        after.controllers.lookup sid := by
  have launches : LaunchesSucceed secondLogon
      loggedOnAgain.endingWindowsSessions ["S-1-5-21-1"]
      fun _ => launching := by
    intro sid listed _ _
    cases List.mem_singleton.mp listed
    exact ⟨by decide, rfl, rfl, rfl, rfl, rfl, rfl⟩
  exact reconcile_converges loggedOnAgain secondLogon ["S-1-5-21-1"] _ _ _
    launches launches

end HostRpc

end Susm.Host
