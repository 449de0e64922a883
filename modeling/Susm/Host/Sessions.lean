import Susm.Foundation.OrderedLookup
import Mathlib.Data.Finset.Basic
import Mathlib.Data.String.Basic

/-!
# The sessions of the machine

The host lists the Windows sessions and asks each for its user.  A user with
one session gets a controller in it; a user with several is in conflict.
-/

namespace Susm.Host

open Susm.Foundation

abbrev Sid := String

structure Logon where
  sessionId : UInt32
  authenticationId : UInt64
  deriving DecidableEq, Repr

inductive ConnectState
  | active
  | connected
  | connectQuery
  | shadow
  | disconnected
  | idle
  | listen
  | reset
  | down
  | init
  deriving DecidableEq, Repr

/-- What a user token tells, as far as it can be read. -/
structure SessionToken where
  sid : Option Sid
  authenticationId : Option UInt64
  deriving DecidableEq, Repr

structure SessionInfo where
  sessionId : UInt32
  state : ConnectState
  userToken : Option SessionToken
  deriving DecidableEq, Repr

def ConnectState.eligible : ConnectState → Bool
  | .active | .connected | .disconnected | .idle => true
  | _ => false

def SessionInfo.user (info : SessionInfo) : Option (Sid × Logon) :=
  if info.state.eligible then do
    let token ← info.userToken
    let sid ← token.sid
    let authenticationId ← token.authenticationId
    return (sid, ⟨info.sessionId, authenticationId⟩)
  else none

structure ActiveSessions where
  sessions : OrderedMap Sid Logon
  conflicts : Finset Sid
  logons : Finset Logon

namespace ActiveSessions

def none : ActiveSessions := ⟨.empty, ∅, ∅⟩

def add (active : ActiveSessions) (user : Sid × Logon) : ActiveSessions :=
  let active := { active with logons := insert user.2 active.logons }
  if user.1 ∈ active.conflicts then active
  else if active.sessions.contains user.1 then
    { active with conflicts := insert user.1 active.conflicts }
  else { active with sessions := active.sessions.insert user.1 user.2 }

end ActiveSessions

def users (entries : List SessionInfo) : List (Sid × Logon) :=
  entries.filterMap SessionInfo.user

def activeSessions (entries : List SessionInfo) : ActiveSessions :=
  (users entries).foldl ActiveSessions.add .none

/-! ## What the inventory says of the users -/

namespace ActiveSessions

/-- The inventory is that of the users. -/
structure Lists (active : ActiveSessions) (listed : List (Sid × Logon)) :
    Prop where
  logons : ∀ logon, logon ∈ active.logons ↔ ∃ sid, (sid, logon) ∈ listed
  sessions : ∀ sid logon, active.sessions.lookup sid = some logon →
    (sid, logon) ∈ listed
  only : ∀ sid logon, (sid, logon) ∈ listed → sid ∉ active.conflicts →
    active.sessions.lookup sid = some logon

variable {active : ActiveSessions} {listed : List (Sid × Logon)}

theorem Lists.add (lists : active.Lists listed) (user : Sid × Logon) :
    (active.add user).Lists (listed ++ [user]) := by
  obtain ⟨sid, logon⟩ := user
  have logons : ∀ other, other ∈ insert logon active.logons ↔
      ∃ user, (user, other) ∈ listed ++ [(sid, logon)] := by
    intro other
    simp [lists.logons, exists_or, or_comm]
  have before : ∀ user ∈ listed, user ∈ listed ++ [(sid, logon)] :=
    fun user h => List.mem_append_left _ h
  simp only [ActiveSessions.add]
  split
  · rename_i conflict
    refine ⟨logons, fun other held h => before _ (lists.sessions _ _ h), ?_⟩
    intro other held hmem free
    rcases List.mem_append.mp hmem with hmem | hmem
    · exact lists.only other held hmem free
    · cases List.mem_singleton.mp hmem
      exact absurd conflict free
  split
  · refine ⟨logons, fun other held h => before _ (lists.sessions _ _ h), ?_⟩
    intro other held hmem free
    rw [Finset.mem_insert, not_or] at free
    rcases List.mem_append.mp hmem with hmem | hmem
    · exact lists.only other held hmem free.2
    · cases List.mem_singleton.mp hmem
      exact absurd rfl free.1
  · rename_i free absent
    have vacant : active.sessions.lookup sid = Option.none :=
      OrderedMap.lookup_eq_none_iff.mpr fun h =>
        absent (OrderedMap.contains_eq_true_iff.mpr h)
    refine ⟨logons, ?_, ?_⟩
    · intro other held h
      rw [OrderedMap.lookup_insert] at h
      split at h
      · rename_i heq
        cases heq
        cases h
        exact List.mem_append_right _ (List.mem_singleton.mpr rfl)
      · exact before _ (lists.sessions _ _ h)
    · intro other held hmem stays
      rcases List.mem_append.mp hmem with hmem | hmem
      · have found := lists.only other held hmem stays
        have ne : other ≠ sid := by
          rintro rfl
          cases vacant.symm.trans found
        rw [OrderedMap.lookup_insert_of_ne ne, found]
      · cases List.mem_singleton.mp hmem
        exact OrderedMap.lookup_insert_self

theorem Lists.foldl (lists : active.Lists listed)
    (more : List (Sid × Logon)) :
    (more.foldl ActiveSessions.add active).Lists (listed ++ more) := by
  induction more generalizing active listed with
  | nil => simpa using lists
  | cons user more ih =>
      have all := ih (lists.add user)
      rwa [List.append_assoc, List.singleton_append] at all

end ActiveSessions

theorem activeSessions_lists (entries : List SessionInfo) :
    (activeSessions entries).Lists (users entries) := by
  have nothing : ActiveSessions.none.Lists [] :=
    ⟨by simp [ActiveSessions.none], by simp [ActiveSessions.none],
      by simp⟩
  exact nothing.foldl (users entries)

section

variable {entries : List SessionInfo} {sid : Sid} {logon : Logon}

theorem mem_logons_iff : logon ∈ (activeSessions entries).logons ↔
    ∃ sid, (sid, logon) ∈ users entries :=
  (activeSessions_lists entries).logons logon

theorem mem_users_of_session
    (h : (activeSessions entries).sessions.lookup sid = some logon) :
    (sid, logon) ∈ users entries :=
  (activeSessions_lists entries).sessions sid logon h

theorem session_of_mem_users (h : (sid, logon) ∈ users entries)
    (free : sid ∉ (activeSessions entries).conflicts) :
    (activeSessions entries).sessions.lookup sid = some logon :=
  (activeSessions_lists entries).only sid logon h free

end

end Susm.Host
