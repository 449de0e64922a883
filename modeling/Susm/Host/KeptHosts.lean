import Mathlib.Data.Finset.Lattice.Lemmas
import Susm.Host.HostWorld

/-!
# Hosts that keep the manager sessions

Each operation of the host, whichever writes to the registry succeed, leaves
every user with a registration that explains what is known of the user.
-/

namespace Susm.Host

open Susm.Foundation

namespace HostRpc

variable {host : HostRpc} {sid : Sid} {forgotten : Finset Logon}
  {view : View} {entries : List SessionInfo} {registered : List Sid}
  {attempts : Sid → Attempt} {written : List Bool} {happened : List Effect}

/-- The marks that are left after the inventory was read. -/
def remaining (entries : List SessionInfo) (forgotten : Finset Logon)
    (host : HostRpc) : Finset Logon :=
  stillThere (users entries) forgotten ∪
    host.endingWindowsSessions.filter (· ∈ (activeSessions entries).logons)

theorem remaining_subset : host.remaining entries forgotten ⊆
    forgotten ∪ host.endingWindowsSessions :=
  Finset.union_subset_union (Finset.filter_subset _ _)
    (Finset.filter_subset _ _)

theorem mem_remaining {logon : Logon}
    (marked : logon ∈ forgotten ∪ host.endingWindowsSessions)
    (here : logon ∈ (users entries).map Prod.snd) :
    logon ∈ host.remaining entries forgotten := by
  have listed : logon ∈ (activeSessions entries).logons := by
    obtain ⟨⟨user, _⟩, hmem, rfl⟩ := List.mem_map.mp here
    exact mem_logons_iff.mpr ⟨user, hmem⟩
  rcases Finset.mem_union.mp marked with h | h
  · exact Finset.mem_union_left _ (Finset.mem_filter.mpr ⟨h, here⟩)
  · exact Finset.mem_union_right _ (Finset.mem_filter.mpr ⟨h, listed⟩)

theorem kept_sampled (entries : List SessionInfo)
    (kept : (host.registration sid).Kept
      (forgotten ∪ host.endingWindowsSessions) view) :
    (host.registration sid).Kept (host.remaining entries forgotten)
      (view.observe sid (.sampled (users entries))) :=
  kept.sampled remaining_subset fun _ => mem_remaining

theorem session_of_present {ending : Finset Logon} {logon : Logon}
    (here : (sid, logon) ∈ users entries)
    (free : sid ∉ (activeSessions entries).conflicts)
    (open_ : logon ∉ ending) :
    session (activeSessions entries) ending sid = some logon := by
  rw [session, session_of_mem_users here free, Option.filter_eq_some_iff]
  exact ⟨rfl, decide_eq_true open_⟩

theorem advances_settled
    (kept : (host.registration sid).Kept
      (forgotten ∪ host.endingWindowsSessions) view)
    (sound : host.SoundReconciliation forgotten
      ⟨some entries, some registered, attempts⟩)
    (listed : sid ∈ registered)
    (h : happened.Sublist (host.settled entries attempts sid).2) :
    (host.settled entries attempts sid).1.Advances sid
      (host.remaining entries forgotten)
      (view.observe sid (.sampled (users entries))) happened := by
  have sampled := kept_sampled entries kept
  have found : (host.found entries sid).Kept
      (host.remaining entries forgotten)
      (view.observe sid (.sampled (users entries))) := by
    have same : (host.found entries sid).binding =
        (host.registration sid).binding :=
      Registration.binding_congr rfl rfl rfl
    exact ⟨same ▸ sampled.explained, sampled.coherent, sampled.unmarked⟩
  have here : ∀ other,
      (view.observe sid (.sampled (users entries))).ledger.Present other →
      (sid, other) ∈ users entries :=
    fun other present => mem_logonsOf.mp (present _ rfl)
  refine Registration.advances_settle found ?_ ?_ ?_ h
  · intro other id known
    have listed := mem_logonsOf.mpr (Ledger.present_of_known known)
    rintro _ ⟨⟩
    exact listed
  · intro free other present unmarked
    refine session_of_present (here other present) (of_decide_eq_false free) ?_
    exact fun marked => unmarked (mem_remaining
      (Finset.mem_union_right _ marked)
      (List.mem_map.mpr ⟨_, here other present, rfl⟩))
  · intro free idle logon asked
    obtain ⟨fresh, spawned⟩ := sound entries rfl registered rfl sid listed
      (of_decide_eq_false free) idle logon asked
    refine ⟨fun marked => ?_, spawned⟩
    rcases Finset.mem_union.mp marked with h | h
    · exact fresh (Finset.mem_filter.mp h).1
    · rw [session, Option.filter_eq_some_iff] at asked
      simp [(Finset.mem_filter.mp h).1] at asked

/-- What a reconciliation does for the users, one after another. -/
def visits (entries : List SessionInfo) (registered : List Sid)
    (attempts : Sid → Attempt) (host : HostRpc) : List Effect :=
  (known registered host.controllers).entries.flatMap fun entry =>
    (visit (activeSessions entries) (host.endingWindowsSessions.filter
      (· ∈ (activeSessions entries).logons)) attempts entry.1 entry.2).2

theorem reconcile_effects : (host.reconcile
    ⟨some entries, some registered, attempts⟩).2 =
      .sampled (users entries) :: .listed registered ::
        host.visits entries registered attempts := rfl

theorem exists_own_visit
    (h : happened.Sublist (host.visits entries registered attempts)) :
    ∃ mine : List Effect, mine.Sublist (if sid ∈ registered then
        (host.settled entries attempts sid).2 else []) ∧
      (view.ledger.Admits sid mine → view.ledger.Admits sid happened) ∧
      view.after sid happened = view.after sid mine := by
  obtain ⟨mine, hmine, admits, after⟩ := @View.exists_own sid view happened
    (known registered host.controllers)
    (fun user registration => (visit (activeSessions entries)
      (host.endingWindowsSessions.filter
        (· ∈ (activeSessions entries).logons)) attempts user registration).2)
    (fun _ _ => Registration.settle_concerns) h
  refine ⟨mine, ?_, admits, after⟩
  rw [lookup_known] at hmine
  split at hmine
  · rename_i listed
    rw [if_pos listed]
    rwa [Option.elim_some, visit, session_remembered] at hmine
  · rename_i unlisted
    rwa [if_neg unlisted]

theorem visits_unread : ∀ effect ∈ host.visits entries registered attempts,
    ∀ users, effect ≠ .sampled users := by
  intro effect h
  obtain ⟨entry, -, hvisit⟩ := List.mem_flatMap.mp h
  exact (Registration.settle_concerns effect hvisit).unread

theorem registration_reconcile : (host.reconcile
    ⟨some entries, some registered, attempts⟩).1.registration sid =
      if sid ∈ registered then (host.settled entries attempts sid).1
      else .empty := by
  rw [registration, lookup_reconcile]
  split <;> rfl

theorem advances_reconcile {input : Reconciliation}
    (kept : (host.registration sid).Kept
      (forgotten ∪ host.endingWindowsSessions) view)
    (sound : host.SoundReconciliation forgotten input)
    (h : happened = Effect.carriedOut written (host.reconcile input).2) :
    ((host.reconcile input).1.registration sid).Advances sid
      (happened.foldl Effect.forget forgotten ∪
        (host.reconcile input).1.endingWindowsSessions) view happened := by
  obtain ⟨read, registered, attempts⟩ := input
  cases read with
  | none =>
      have nothing := h.trans Effect.carriedOut_nothing
      subst nothing
      exact kept.advances
  | some entries =>
      have sampled := kept_sampled entries kept
      cases registered with
      | none =>
          obtain ⟨rest, hrest⟩ := @Effect.carriedOut_read written
            (.sampled (users entries)) [] rfl
          have only : happened = [.sampled (users entries)] := by
            rw [h]
            exact hrest.trans (by cases rest <;> rfl)
          subst only
          exact ⟨⟨trivial, trivial⟩, sampled⟩
      | some registered =>
          rw [reconcile_effects] at h
          obtain ⟨rest, hrest⟩ := @Effect.carriedOut_read written
            (.sampled (users entries)) (.listed registered ::
              host.visits entries registered attempts) rfl
          obtain ⟨last, hlast⟩ := @Effect.carriedOut_read rest
            (.listed registered) (host.visits entries registered attempts) rfl
          rw [hrest, hlast] at h
          have part := @Effect.carriedOut_sublist last
            (host.visits entries registered attempts)
          generalize Effect.carriedOut last
            (host.visits entries registered attempts) = visited at h part
          subst h
          have marks : (Effect.sampled (users entries) :: .listed registered ::
              visited).foldl Effect.forget forgotten ∪ (host.reconcile ⟨some
                entries, some registered, attempts⟩).1.endingWindowsSessions =
                  host.remaining entries forgotten := by
            rw [List.foldl_cons, List.foldl_cons, Effect.foldl_forget
              fun effect heffect => visits_unread effect (part.subset heffect)]
            rfl
          rw [marks, registration_reconcile]
          obtain ⟨mine, hmine, admits, after⟩ := @exists_own_visit host sid
            ((view.observe sid (.sampled (users entries))).observe sid
              (.listed registered)) entries registered attempts visited part
          have advances : (if sid ∈ registered then
              (host.settled entries attempts sid).1 else .empty).Advances sid
                (host.remaining entries forgotten)
                ((view.observe sid (.sampled (users entries))).observe sid
                  (.listed registered)) mine := by
            by_cases listed : sid ∈ registered
            · rw [if_pos listed] at hmine ⊢
              rw [View.observe_listed listed]
              exact advances_settled kept sound listed hmine
            · rw [if_neg listed] at hmine ⊢
              cases List.sublist_nil.mp hmine
              exact (Registration.kept_empty
                (Registration.explained_unlisted sampled listed)).advances
          have all := advances.of_own admits after
          exact ⟨⟨trivial, trivial, all.admits⟩, all.kept⟩

theorem registration_restored {runtime : OrderedMap Sid RuntimeSession} :
    (restored registered runtime).registration sid =
      if sid ∈ registered then .restored (runtime.lookup sid) else .empty := by
  rw [registration, restored, OrderedMap.lookup_foldl_insert]
  split <;> rfl

theorem advances_restored {runtime : OrderedMap Sid RuntimeSession}
    {marks : Finset Logon}
    (kept : (Registration.restored (runtime.lookup sid)).Kept marks view)
    (h : happened.Sublist ((runtime.keys.filter (· ∉ registered)).map
      Effect.removed)) :
    ((restored registered runtime).registration sid).Advances sid marks
      (view.observe sid (.listed registered)) happened := by
  rw [registration_restored]
  by_cases listed : sid ∈ registered
  · rw [if_pos listed, View.observe_listed listed]
    obtain ⟨admits, stays⟩ := @View.foreign_block sid view happened (by
      intro effect heffect
      obtain ⟨user, huser, rfl⟩ := List.mem_map.mp (h.subset heffect)
      have unlisted := of_decide_eq_true (List.mem_filter.mp huser).2
      exact ⟨user, fun same => unlisted (same ▸ listed), rfl⟩)
    exact ⟨admits, stays.symm ▸ kept⟩
  · rw [if_neg listed]
    have nothing := Registration.explained_unlisted kept listed
    obtain ⟨admits, explained, -⟩ := nothing.block fun effect heffect => by
      obtain ⟨user, -, rfl⟩ := List.mem_map.mp (h.subset heffect)
      exact fun _ => rfl
    exact ⟨admits, Registration.kept_empty explained⟩

theorem advances_new {runtime : OrderedMap Sid RuntimeSession}
    {input : Reconciliation}
    (kept : (Registration.restored (runtime.lookup sid)).Kept forgotten view)
    (sound : (restored registered runtime).SoundReconciliation forgotten
      input)
    (h : happened = Effect.carriedOut written
      (new registered runtime input).2) :
    ((new registered runtime input).1.registration sid).Advances sid
      (happened.foldl Effect.forget forgotten ∪
        (new registered runtime input).1.endingWindowsSessions) view
      happened := by
  have effects : (new registered runtime input).2 =
      .listed registered :: ((runtime.keys.filter (· ∉ registered)).map
        Effect.removed ++
          ((restored registered runtime).reconcile input).2) := rfl
  rw [effects] at h
  obtain ⟨rest, hrest⟩ := @Effect.carriedOut_read written
    (.listed registered) _ rfl
  obtain ⟨last, hlast⟩ := @Effect.carriedOut_append rest
    ((runtime.keys.filter (· ∉ registered)).map Effect.removed)
    ((restored registered runtime).reconcile input).2
  rw [hrest, hlast] at h
  have part := @Effect.carriedOut_sublist rest
    ((runtime.keys.filter (· ∉ registered)).map Effect.removed)
  generalize Effect.carriedOut rest
    ((runtime.keys.filter (· ∉ registered)).map Effect.removed) = removed
    at h part
  obtain ⟨reconciled, hreconciled⟩ : ∃ reconciled, reconciled =
      Effect.carriedOut last
        ((restored registered runtime).reconcile input).2 := ⟨_, rfl⟩
  rw [← hreconciled] at h
  subst h
  have first := advances_restored kept part
  have same : forgotten ∪
      (restored registered runtime).endingWindowsSessions = forgotten :=
    Finset.union_empty forgotten
  have second := advances_reconcile (same.symm ▸ first.kept) sound hreconciled
  have forget : (Effect.listed registered :: (removed ++ reconciled)).foldl
      Effect.forget forgotten = reconciled.foldl Effect.forget forgotten := by
    have quiet : removed.foldl Effect.forget forgotten = forgotten := by
      apply Effect.foldl_forget
      intro effect heffect
      obtain ⟨user, -, rfl⟩ := List.mem_map.mp (part.subset heffect)
      exact nofun
    rw [List.foldl_cons, List.foldl_append]
    exact congrArg (reconciled.foldl Effect.forget) quiet
  rw [forget]
  have both := second.append first.admits
  exact ⟨⟨trivial, both.admits⟩, both.kept⟩

/-! ### Users who register -/

/-- The session that a user who registers may have a controller in. -/
def eligible (entries : List SessionInfo) (sid : Sid) : Option Logon :=
  if sid ∈ (activeSessions entries).conflicts then none
  else (activeSessions entries).sessions.lookup sid

def flagged (entries : List SessionInfo) (registration : Registration)
    (sid : Sid) : Registration :=
  { registration with
    sessionConflict := sid ∈ (activeSessions entries).conflicts }

theorem register_cases {registration : Registration}
    {read : Option (List SessionInfo)} {attempt : Attempt} :
    ((registration.register sid read attempt).1 = registration ∧
      (registration.register sid read attempt).2.1 = []) ∨
    ∃ entries, read = some entries ∧ registration.runner = none ∧
      (registration.register sid read attempt).1 =
        ((flagged entries registration sid).startNew sid
          (eligible entries sid) attempt).1 ∧
      (registration.register sid read attempt).2.1 =
        .sampled (users entries) :: ((flagged entries registration
          sid).startNew sid (eligible entries sid) attempt).2.1 := by
  unfold Registration.register
  split
  · exact .inl ⟨rfl, rfl⟩
  · rename_i idle
    cases read with
    | none => exact .inl ⟨rfl, rfl⟩
    | some entries =>
        refine .inr ⟨entries, rfl, Option.not_isSome_iff_eq_none.mp idle, ?_⟩
        simp [flagged, eligible]

theorem kept_registering (entries : List SessionInfo)
    (kept : (host.registration sid).Kept
      (forgotten ∪ host.endingWindowsSessions) view) :
    (host.registration sid).Kept
      (stillThere (users entries) forgotten ∪ host.endingWindowsSessions)
      (view.observe sid (.sampled (users entries))) := by
  refine kept.sampled (Finset.union_subset_union (Finset.filter_subset _ _)
    (Finset.Subset.refl _)) fun logon marked here => ?_
  rcases Finset.mem_union.mp marked with h | h
  · exact Finset.mem_union_left _ (Finset.mem_filter.mpr ⟨h, here⟩)
  · exact Finset.mem_union_right _ h

theorem advances_registered {attempt : Attempt}
    {runtime : OrderedMap Sid RuntimeSession}
    (kept : (host.registration sid).Kept
      (forgotten ∪ host.endingWindowsSessions) view)
    (saved : view.saved = runtime.lookup sid)
    (sound : host.SoundRegistration runtime forgotten sid (some entries)
      attempt)
    (idle : (host.registration sid).runner = none)
    (h : happened.Sublist ((flagged entries (host.registration sid)
      sid).startNew sid (eligible entries sid) attempt).2.1) :
    ((flagged entries (host.registration sid) sid).startNew sid
      (eligible entries sid) attempt).1.Advances sid
      (stillThere (users entries) forgotten ∪ host.endingWindowsSessions)
      (view.observe sid (.sampled (users entries))) happened := by
  have sampled := kept_registering entries kept
  have flag : (flagged entries (host.registration sid) sid).Kept
      (stillThere (users entries) forgotten ∪ host.endingWindowsSessions)
      (view.observe sid (.sampled (users entries))) := by
    have same : (flagged entries (host.registration sid) sid).binding =
        (host.registration sid).binding :=
      Registration.binding_congr rfl rfl rfl
    exact ⟨same ▸ sampled.explained, sampled.coherent, sampled.unmarked⟩
  refine Registration.advances_startNew flag ?_ h
  intro reaches logon asked
  unfold eligible at asked
  split at asked
  · cases asked
  rename_i free
  obtain ⟨unended, unforgotten, spawned, unsaved⟩ :=
    sound entries rfl free idle reaches logon asked
  refine ⟨?_, spawned, sampled.explained.ended, ?_⟩
  · intro marked
    rcases Finset.mem_union.mp marked with h | h
    · exact unforgotten (Finset.mem_filter.mp h).1
    · exact unended h
  · intro other id known unmarked
    have here := session_of_mem_users (Ledger.present_of_known known) free
    cases asked.symm.trans here
    obtain ⟨-, session, held, binding⟩ :=
      sampled.explained.known _ id known unmarked
    exact absurd (RuntimeSession.logon_of_binding binding)
      (unsaved session (saved ▸ held))

theorem registration_registerUser {user : Sid}
    {read : Option (List SessionInfo)} {attempt : Attempt} :
    (host.registerUser user true read attempt).1.registration sid =
      if sid = user then
        ((host.registration user).register user read attempt).1
      else host.registration sid := by
  change ((host.controllers.insert user _).lookup sid).getD _ = _
  rw [OrderedMap.lookup_insert]
  split <;> rfl

theorem advances_registerUser {user : Sid} {added : Bool}
    {read : Option (List SessionInfo)} {attempt : Attempt}
    {runtime : OrderedMap Sid RuntimeSession}
    (kept : (host.registration sid).Kept
      (forgotten ∪ host.endingWindowsSessions) view)
    (saved : view.saved = runtime.lookup sid)
    (sound : added = true → host.SoundRegistration runtime forgotten user read
      attempt)
    (h : happened = Effect.carriedOut written
      (host.registerUser user added read attempt).2.1) :
    ((host.registerUser user added read attempt).1.registration sid).Advances
      sid (happened.foldl Effect.forget forgotten ∪
        (host.registerUser user added read attempt).1.endingWindowsSessions)
      view happened := by
  cases added with
  | false =>
      have nothing := h.trans Effect.carriedOut_nothing
      subst nothing
      exact kept.advances
  | true =>
      have effects : (host.registerUser user true read attempt).2.1 =
          ((host.registration user).register user read attempt).2.1 := rfl
      rw [effects] at h
      change Registration.Advances sid (_ ∪ host.endingWindowsSessions) _ _ _
      rw [registration_registerUser]
      rcases @register_cases user (host.registration user) read attempt with
        ⟨same, none⟩ | ⟨entries, rfl, idle, same, some⟩
      · rw [none] at h
        have nothing := h.trans Effect.carriedOut_nothing
        subst nothing
        rw [same]
        have unchanged : (if sid = user then host.registration user
            else host.registration sid) = host.registration sid := by
          split
          · rename_i heq
            rw [heq]
          · rfl
        rw [unchanged]
        exact kept.advances
      · rw [some] at h
        obtain ⟨rest, hrest⟩ := @Effect.carriedOut_read written
          (.sampled (users entries)) ((flagged entries (host.registration user)
            user).startNew user (eligible entries user) attempt).2.1 rfl
        rw [hrest] at h
        have part := @Effect.carriedOut_sublist rest
          ((flagged entries (host.registration user) user).startNew user
            (eligible entries user) attempt).2.1
        generalize Effect.carriedOut rest ((flagged entries
          (host.registration user) user).startNew user (eligible entries user)
            attempt).2.1 = started at h part
        subst h
        have concerns : ∀ effect ∈ started, effect.Concerns user :=
          fun effect heffect => Registration.startNew_concerns effect
            (part.subset heffect)
        have forget : (Effect.sampled (users entries) :: started).foldl
            Effect.forget forgotten = stillThere (users entries) forgotten := by
          rw [List.foldl_cons]
          exact Effect.foldl_forget fun effect heffect =>
            (concerns effect heffect).unread
        rw [forget]
        by_cases heq : sid = user
        · subst heq
          rw [if_pos rfl, same]
          have advances := advances_registered kept saved (sound rfl) idle part
          exact ⟨⟨trivial, advances.admits⟩, advances.kept⟩
        · rw [if_neg heq]
          obtain ⟨admits, stays⟩ := @View.foreign_block sid
            (view.observe sid (.sampled (users entries))) started
            fun effect heffect => ⟨user, Ne.symm heq, concerns effect heffect⟩
          refine ⟨⟨trivial, admits⟩, ?_⟩
          rw [View.after, List.foldl_cons, ← View.after, stays]
          exact kept_registering entries kept

/-! ### Windows sessions that end -/

theorem endedLogon_eq_some_iff {sessionId : UInt32}
    {registration : Registration} {logon : Logon} :
    endedLogon sessionId registration = some logon ↔
      registration.Bound logon ∧ logon.sessionId = sessionId := by
  unfold endedLogon Registration.Bound
  constructor
  · intro h
    split at h
    · rename_i windows
      obtain ⟨authenticationId, held, rfl⟩ := Option.map_eq_some_iff.mp h
      exact ⟨⟨windows, held⟩, rfl⟩
    · cases h
  · rintro ⟨⟨windows, held⟩, rfl⟩
    rw [if_pos windows, held]
    rfl

def sessionEnd (sessionId : UInt32) (sid : Sid)
    (registration : Registration) : Registration × List Effect :=
  if registration.windowsSessionId = some sessionId then
    registration.endRegistration sid
  else (registration, [])

def endedLogons (sessionId : UInt32) (host : HostRpc) : List Logon :=
  host.controllers.entries.filterMap fun entry =>
    endedLogon sessionId entry.2

theorem registration_endWindowsSession {sessionId : UInt32} :
    (host.endWindowsSession sessionId).1.registration sid =
      (sessionEnd sessionId sid (host.registration sid)).1 := by
  change ((host.controllers.mapValues _).lookup sid).getD _ = _
  rw [OrderedMap.lookup_mapValues, registration]
  cases host.controllers.lookup sid with
  | none => rfl
  | some registration => rfl

theorem sessionEnd_advances {sessionId : UInt32} {wider : Finset Logon}
    {registration : Registration}
    (kept : registration.Kept forgotten view)
    (marks : ∀ logon, logon ∈ wider → logon ∉ forgotten →
      logon.sessionId = sessionId) (subset : forgotten ⊆ wider)
    (ended : ∀ logon, registration.Bound logon →
      logon.sessionId = sessionId → logon ∈ wider)
    (h : happened.Sublist (sessionEnd sessionId sid registration).2) :
    (sessionEnd sessionId sid registration).1.Advances sid wider view
      happened := by
  unfold sessionEnd at h ⊢
  split at h
  · rename_i windows
    rw [if_pos windows]
    have bound_marked : ∀ logon, registration.Bound logon → logon ∈ wider :=
      fun logon bound => ended logon bound
        (Option.some_inj.mp (bound.1.symm.trans windows))
    refine Registration.advances_end ⟨kept.explained.ended.trans subset, ?_⟩
      ?_ h
    · intro logon id known unmarked
      have binding := (kept.explained.known logon id known
        fun marked => unmarked (subset marked)).1
      have bound := (Registration.binding_eq_some_iff.mp binding).1
      exact absurd (bound_marked logon bound) unmarked
    · exact fun runner held =>
        .inl (bound_marked _ (kept.coherent runner held).2)
  · rename_i windows
    rw [if_neg windows]
    cases List.sublist_nil.mp h
    refine Registration.Kept.advances (kept.widen subset ?_)
    intro runner held marked
    have same := marks _ marked (kept.unmarked runner held)
    exact windows (same ▸ (kept.coherent runner held).2.1)

theorem sessionEnd_concerns {sessionId : UInt32} (user : Sid)
    (registration : Registration) : ∀ effect ∈
      (sessionEnd sessionId user registration).2, effect.Concerns user := by
  unfold sessionEnd
  split
  · exact Registration.endRegistration_concerns
  · exact List.forall_mem_nil _

theorem mem_endedLogons {sessionId : UInt32} {logon : Logon} :
    logon ∈ host.endedLogons sessionId ↔
      ∃ entry ∈ host.controllers.entries,
        entry.2.Bound logon ∧ logon.sessionId = sessionId := by
  simp only [endedLogons, List.mem_filterMap, endedLogon_eq_some_iff]

theorem mem_entries_of_bound {logon : Logon}
    (bound : (host.registration sid).Bound logon) :
    (sid, host.registration sid) ∈ host.controllers.entries := by
  unfold registration at bound ⊢
  cases held : host.controllers.lookup sid with
  | none =>
      rw [held] at bound
      cases bound.1
  | some registration => exact OrderedMap.lookup_eq_some_iff.mp held

theorem advances_sessionEnd {sessionId : UInt32}
    (kept : (host.registration sid).Kept
      (forgotten ∪ host.endingWindowsSessions) view)
    (h : happened.Sublist (host.controllers.entries.flatMap fun entry =>
      (sessionEnd sessionId entry.1 entry.2).2)) :
    (sessionEnd sessionId sid (host.registration sid)).1.Advances sid
      (forgotten ∪ (host.endingWindowsSessions ∪
        (host.endedLogons sessionId).toFinset)) view happened := by
  obtain ⟨mine, hmine, admits, after⟩ := @View.exists_own sid view happened
    host.controllers
    (fun user registration => (sessionEnd sessionId user registration).2)
    sessionEnd_concerns h
  have own : mine.Sublist
      (sessionEnd sessionId sid (host.registration sid)).2 := by
    unfold registration
    cases held : host.controllers.lookup sid with
    | none =>
        rw [held] at hmine
        cases List.sublist_nil.mp hmine
        exact List.nil_sublist _
    | some registration =>
        rw [held] at hmine
        exact hmine
  refine (sessionEnd_advances kept ?_ ?_ ?_ own).of_own admits after
  · intro logon marked unmarked
    rw [← Finset.union_assoc, Finset.mem_union, List.mem_toFinset] at marked
    obtain ⟨entry, -, -, same⟩ :=
      mem_endedLogons.mp (marked.resolve_left unmarked)
    exact same
  · exact Finset.union_subset_union (Finset.Subset.refl _)
      Finset.subset_union_left
  · intro logon bound same
    refine Finset.mem_union_right _ (Finset.mem_union_right _ ?_)
    rw [List.mem_toFinset]
    exact mem_endedLogons.mpr ⟨_, mem_entries_of_bound bound, bound, same⟩

theorem advances_endWindowsSession {sessionId : UInt32}
    (kept : (host.registration sid).Kept
      (forgotten ∪ host.endingWindowsSessions) view)
    (h : happened = Effect.carriedOut written
      (host.endWindowsSession sessionId).2) :
    ((host.endWindowsSession sessionId).1.registration sid).Advances sid
      (happened.foldl Effect.forget forgotten ∪
        (host.endWindowsSession sessionId).1.endingWindowsSessions) view
      happened := by
  have effects : (host.endWindowsSession sessionId).2 =
      (host.controllers.entries.flatMap fun entry =>
        (sessionEnd sessionId entry.1 entry.2).2) ++
        (host.endedLogons sessionId).map Effect.ended := rfl
  have wider : (host.endWindowsSession sessionId).1.endingWindowsSessions =
      host.endingWindowsSessions ∪ (host.endedLogons sessionId).toFinset := rfl
  rw [effects] at h
  obtain ⟨rest, hrest⟩ := @Effect.carriedOut_append written
    (host.controllers.entries.flatMap fun entry =>
      (sessionEnd sessionId entry.1 entry.2).2)
    ((host.endedLogons sessionId).map Effect.ended)
  have done := @Effect.carriedOut_sublist written
    (host.controllers.entries.flatMap fun entry =>
      (sessionEnd sessionId entry.1 entry.2).2)
  have marking := @Effect.carriedOut_sublist rest
    ((host.endedLogons sessionId).map Effect.ended)
  rw [hrest] at h
  generalize Effect.carriedOut written (host.controllers.entries.flatMap
    fun entry => (sessionEnd sessionId entry.1 entry.2).2) = ends at h done
  generalize Effect.carriedOut rest
    ((host.endedLogons sessionId).map Effect.ended) = marked at h marking
  subst h
  have unread : ∀ effect ∈ ends ++ marked, ∀ users,
      effect ≠ .sampled users := by
    intro effect heffect
    rcases List.mem_append.mp heffect with heffect | heffect
    · obtain ⟨entry, -, hvisit⟩ :=
        List.mem_flatMap.mp (done.subset heffect)
      exact (sessionEnd_concerns _ _ effect hvisit).unread
    · obtain ⟨logon, -, rfl⟩ := List.mem_map.mp (marking.subset heffect)
      exact nofun
  rw [Effect.foldl_forget unread, wider, registration_endWindowsSession]
  have block := advances_sessionEnd kept done
  refine (block.kept.ended fun effect heffect => ?_).append block.admits
  obtain ⟨logon, hlogon, rfl⟩ := List.mem_map.mp (marking.subset heffect)
  exact ⟨logon, Finset.mem_union_right _ (Finset.mem_union_right _
    (List.mem_toFinset.mpr hlogon)), rfl⟩

/-! ### Hosts that are stopped, and runners that report -/

theorem detachAll_unread : ∀ effect ∈ host.detachAll.2,
    ∀ users, effect ≠ .sampled users := by
  intro effect h
  obtain ⟨entry, -, h⟩ := List.mem_flatMap.mp h
  rcases List.mem_append.mp h with persisted | detached
  · exact (Registration.persistRuntime_concerns effect persisted).unread
  · obtain ⟨runner, -, rfl⟩ := List.mem_map.mp detached
    exact nofun

theorem observed_eq_some {user : Sid} {process : Option ProcessIdentity}
    {next : HostRpc} {effects : List Effect}
    (moved : host.observed user process = some (next, effects)) :
    ∃ found runner, host.controllers.lookup user = some found ∧
      found.runner = some runner ∧
      next = { host with
        controllers := host.controllers.insert user
          { found with runner := some (runner.observe user process).1 } } ∧
      effects = (runner.observe user process).2 := by
  simp only [observed, Option.bind_eq_bind, Option.bind_eq_some_iff,
    Option.pure_def, Option.some_inj, Prod.mk.injEq] at moved
  obtain ⟨found, held, runner, runs, rfl, rfl⟩ := moved
  exact ⟨found, runner, held, runs, rfl, rfl⟩

theorem observed_unread {user : Sid} {process : Option ProcessIdentity}
    {next : HostRpc} {effects : List Effect}
    (moved : host.observed user process = some (next, effects)) :
    ∀ effect ∈ effects, ∀ users, effect ≠ .sampled users := by
  obtain ⟨found, runner, -, -, -, rfl⟩ := observed_eq_some moved
  exact fun effect h => (Registration.observe_concerns effect h).unread

theorem advances_detachAll
    (kept : (host.registration sid).Kept
      (forgotten ∪ host.endingWindowsSessions) view)
    (h : happened.Sublist host.detachAll.2) :
    (Registration.restored (view.after sid happened).saved).Advances sid
      (forgotten ∪ host.endingWindowsSessions) view happened := by
  obtain ⟨mine, hmine, admits, after⟩ := @View.exists_own sid view happened
    host.controllers (fun user registration =>
      registration.persistRuntime user ++
        registration.runner.toList.map fun _ => Effect.detached user)
    (by
      intro user registration effect heffect
      rcases List.mem_append.mp heffect with persisted | detached
      · exact Registration.persistRuntime_concerns effect persisted
      · obtain ⟨runner, -, rfl⟩ := List.mem_map.mp detached
        trivial) h
  have fits : ∀ effect ∈ mine, View.Fits sid
      (forgotten ∪ host.endingWindowsSessions)
      (host.registration sid).binding view.ledger effect := by
    intro effect heffect
    have part := hmine.subset heffect
    unfold registration
    cases held : host.controllers.lookup sid with
    | none =>
        rw [held] at part
        cases part
    | some registration =>
        rw [held] at part
        rcases List.mem_append.mp part with persisted | detached
        · exact Registration.persist_fits effect persisted
        · obtain ⟨runner, -, rfl⟩ := List.mem_map.mp detached
          trivial
  obtain ⟨allowed, explained, -⟩ := kept.explained.block fits
  rw [← after] at explained
  exact ⟨admits allowed, Registration.kept_restored explained⟩

theorem advances_observed {user : Sid} {process : Option ProcessIdentity}
    {next : HostRpc} {effects : List Effect}
    (kept : (host.registration sid).Kept
      (forgotten ∪ host.endingWindowsSessions) view)
    (moved : host.observed user process = some (next, effects))
    (h : happened.Sublist effects) :
    (next.registration sid).Advances sid
      (forgotten ∪ next.endingWindowsSessions) view happened := by
  obtain ⟨found, runner, held, runs, rfl, rfl⟩ := observed_eq_some moved
  have registered : ∀ other, registration { host with
      controllers := host.controllers.insert user { found with
        runner := some (runner.observe user process).1 } } other =
      if other = user then { found with
        runner := some (runner.observe user process).1 }
      else host.registration other := by
    intro other
    rw [registration, OrderedMap.lookup_insert]
    split <;> rfl
  rw [registered]
  by_cases heq : sid = user
  · subst heq
    rw [if_pos rfl]
    have same : host.registration sid = found := by
      rw [registration, held, Option.getD_some]
    rw [same] at kept
    exact Registration.advances_observe kept runs h
  · rw [if_neg heq]
    obtain ⟨admits, stays⟩ := @View.foreign_block sid view happened
      fun effect heffect => ⟨user, Ne.symm heq,
        Registration.observe_concerns effect (h.subset heffect)⟩
    exact ⟨admits, stays.symm ▸ kept⟩

end HostRpc

end Susm.Host
