import Susm.Host.EffectBlocks

/-!
# The host in its world

The host is started, reconciles, registers users, ends Windows sessions and is
replaced by another host, in any order.  Every answer it gets is arbitrary, and
a write to the registry may fail, which the host does not notice.
-/

namespace Susm.Host

open Susm.Foundation

inductive Operation
  /-- A host is constructed; the registry may be unreadable. -/
  | start (registered : Option (List Sid)) (input : Reconciliation)
  | reconcile (input : Reconciliation)
  | registerUser (sid : Sid) (added : Bool)
      (entries : Option (List SessionInfo)) (attempt : Attempt)
  | endWindowsSession (sessionId : UInt32)
  /-- The host is stopped, and its runners are let go. -/
  | detachAll
  /-- The thread of a runner reports its process. -/
  | observed (sid : Sid) (process : Option ProcessIdentity)

structure Event where
  operation : Operation
  /-- Which of the writes to the registry succeed. -/
  written : List Bool

namespace Effect

def isWrite : Effect → Bool
  | .saved .. | .removed _ => true
  | _ => false

def carriedOut : List Bool → List Effect → List Effect
  | _, [] => []
  | [], effects => effects
  | succeeds :: written, effect :: effects =>
      if succeeds || !effect.isWrite then
        effect :: carriedOut written effects
      else carriedOut written effects

def record (runtime : OrderedMap Sid RuntimeSession) :
    Effect → OrderedMap Sid RuntimeSession
  | .saved sid session => runtime.insert sid session
  | .removed sid => runtime.erase sid
  | _ => runtime

def forget (forgotten : Finset Logon) : Effect → Finset Logon
  | .sampled users => stillThere users forgotten
  | _ => forgotten

end Effect

/-- The registry and the host, with what has happened so far. -/
structure World where
  runtime : OrderedMap Sid RuntimeSession
  host : Option HostRpc
  /-- What earlier hosts had marked as ending, as long as it is still there. -/
  forgotten : Finset Logon
  trace : List Effect

namespace HostRpc

def observed (sid : Sid) (process : Option ProcessIdentity)
    (host : HostRpc) : Option (HostRpc × List Effect) := do
  let registration ← host.controllers.lookup sid
  let runner ← registration.runner
  let (runner, effects) := runner.observe sid process
  let registration := { registration with runner := some runner }
  return ({ host with
    controllers := host.controllers.insert sid registration }, effects)

end HostRpc

namespace World

def perform (world : World) :
    Operation → Option (Option HostRpc × List Effect)
  | .start registered input =>
      match world.host, registered with
      | none, some registered =>
          some (some (HostRpc.new registered world.runtime input).1,
            (HostRpc.new registered world.runtime input).2)
      | none, none => some (none, [])
      | some _, _ => none
  | .reconcile input => world.host.map fun host =>
      (some (host.reconcile input).1, (host.reconcile input).2)
  | .registerUser sid added entries attempt => world.host.map fun host =>
      (some (host.registerUser sid added entries attempt).1,
        (host.registerUser sid added entries attempt).2.1)
  | .endWindowsSession sessionId => world.host.map fun host =>
      (some (host.endWindowsSession sessionId).1,
        (host.endWindowsSession sessionId).2)
  | .detachAll => world.host.map fun host => (none, host.detachAll.2)
  | .observed sid process => world.host.bind fun host =>
      (host.observed sid process).map fun next => (some next.1, next.2)

/-- The marks that a replaced host takes with it. -/
def lost (world : World) : Operation → Finset Logon
  | .detachAll => world.host.elim ∅ HostRpc.endingWindowsSessions
  | _ => ∅

def step (world : World) (event : Event) : Option World :=
  (world.perform event.operation).map fun (host, effects) =>
    let happened := Effect.carriedOut event.written effects
    { runtime := happened.foldl Effect.record world.runtime
      host
      forgotten := happened.foldl Effect.forget
        (world.forgotten ∪ world.lost event.operation)
      trace := world.trace ++ happened }

end World

/-! ## The steps that keep the manager sessions -/

namespace HostRpc

def registration (host : HostRpc) (sid : Sid) : Registration :=
  (host.controllers.lookup sid).getD .empty

/-- No controller is started for a logon that an earlier host has marked, and
the runner starts unless the registration has the logon's identifier. -/
def SoundStart (forgotten : Finset Logon) (entries : List SessionInfo)
    (attempt : Attempt) (sid : Sid) (host : HostRpc) : Prop :=
  sid ∉ (activeSessions entries).conflicts →
    (host.registration sid).runner = none →
      ∀ logon ∈ session (activeSessions entries) host.endingWindowsSessions
          sid,
        logon ∉ forgotten ∧ (attempt.spawned = true ∨
          (host.registration sid).Bound logon ∧
            (host.registration sid).managerSessionId ≠ "")

instance (forgotten : Finset Logon) (entries : List SessionInfo)
    (attempt : Attempt) (sid : Sid) (host : HostRpc) :
    Decidable (host.SoundStart forgotten entries attempt sid) := by
  unfold SoundStart
  infer_instance

def SoundReconciliation (forgotten : Finset Logon) (input : Reconciliation)
    (host : HostRpc) : Prop :=
  ∀ entries ∈ input.entries, ∀ registered ∈ input.registered,
    ∀ sid ∈ registered,
      host.SoundStart forgotten entries (input.attempts sid) sid

instance (forgotten : Finset Logon) (input : Reconciliation)
    (host : HostRpc) :
    Decidable (host.SoundReconciliation forgotten input) := by
  unfold SoundReconciliation
  infer_instance

/-- A user who registers gets no controller for a logon that is marked or that
the registry has a manager session for, and a controller gets its runner. -/
def SoundRegistration (runtime : OrderedMap Sid RuntimeSession)
    (forgotten : Finset Logon) (sid : Sid)
    (entries : Option (List SessionInfo)) (attempt : Attempt)
    (host : HostRpc) : Prop :=
  ∀ read ∈ entries, sid ∉ (activeSessions read).conflicts →
    (host.registration sid).runner = none → attempt.reaches = true →
      ∀ logon ∈ (activeSessions read).sessions.lookup sid,
        logon ∉ host.endingWindowsSessions ∧ logon ∉ forgotten ∧
          attempt.spawned = true ∧
            ∀ session ∈ runtime.lookup sid, session.logon ≠ logon

instance (runtime : OrderedMap Sid RuntimeSession)
    (forgotten : Finset Logon) (sid : Sid)
    (entries : Option (List SessionInfo)) (attempt : Attempt)
    (host : HostRpc) : Decidable
      (host.SoundRegistration runtime forgotten sid entries attempt) :=
  @Option.decidableForallMem _ _ (fun _ =>
    @forall_prop_decidable _ _ inferInstance fun _ => inferInstance) entries

end HostRpc

namespace World

def Sound (world : World) (event : Event) : Prop :=
  match event.operation with
  | .start registered input => ∀ sids ∈ registered,
      (HostRpc.restored sids world.runtime).SoundReconciliation
        world.forgotten input
  | .reconcile input => ∀ host ∈ world.host,
      host.SoundReconciliation world.forgotten input
  | .registerUser sid added entries attempt => added = true →
      ∀ host ∈ world.host, host.SoundRegistration world.runtime
        world.forgotten sid entries attempt
  | .endWindowsSession _ | .detachAll | .observed .. => True

instance : ∀ world event, Decidable (Sound world event) := by
  intro world event
  unfold Sound
  split <;> infer_instance

end World

/-! ## What the steps do to the registry and to the inventory -/

namespace Effect

variable {written : List Bool} {effect : Effect}
  {effects first second happened : List Effect}

theorem carriedOut_nil : carriedOut [] effects = effects := by
  cases effects <;> rfl

theorem carriedOut_nothing : carriedOut written [] = [] := by
  cases written <;> rfl

theorem carriedOut_sublist :
    (carriedOut written effects).Sublist effects := by
  induction effects generalizing written with
  | nil => cases written <;> exact .refl _
  | cons effect effects ih =>
      cases written with
      | nil => exact .refl _
      | cons succeeds written =>
          unfold carriedOut
          split
          · exact ih.cons_cons effect
          · exact ih.cons effect

theorem carriedOut_read (read : effect.isWrite = false) :
    ∃ rest, carriedOut written (effect :: effects) =
      effect :: carriedOut rest effects := by
  cases written with
  | nil => exact ⟨[], by rw [carriedOut_nil, carriedOut_nil]⟩
  | cons succeeds written =>
      refine ⟨written, ?_⟩
      rw [carriedOut, read]
      simp

theorem carriedOut_append : ∃ rest, carriedOut written (first ++ second) =
    carriedOut written first ++ carriedOut rest second := by
  induction first generalizing written with
  | nil => exact ⟨written, by rw [carriedOut_nothing]; rfl⟩
  | cons effect first ih =>
      cases written with
      | nil =>
          refine ⟨[], ?_⟩
          rw [carriedOut_nil, carriedOut_nil, carriedOut_nil]
      | cons succeeds written =>
          obtain ⟨rest, h⟩ := @ih written
          refine ⟨rest, ?_⟩
          rw [List.cons_append, carriedOut, carriedOut, h]
          split <;> rfl

theorem foldl_forget {forgotten : Finset Logon}
    (unread : ∀ effect ∈ happened, ∀ users, effect ≠ .sampled users) :
    happened.foldl forget forgotten = forgotten := by
  induction happened with
  | nil => rfl
  | cons effect happened ih =>
      rw [List.forall_mem_cons] at unread
      have same : forget forgotten effect = forgotten := by
        cases effect with
        | sampled users => exact absurd rfl (unread.1 users)
        | _ => rfl
      rw [List.foldl_cons, same, ih unread.2]

theorem Concerns.unread {user : Sid} (concerns : effect.Concerns user)
    (users : List (Sid × Logon)) : effect ≠ .sampled users := by
  rintro rfl
  exact concerns

theorem lookup_record {runtime : OrderedMap Sid RuntimeSession} {sid : Sid} :
    (record runtime effect).lookup sid =
      View.record sid (runtime.lookup sid) effect := by
  cases effect with
  | saved user session =>
      rw [record, OrderedMap.lookup_insert, View.record]
      exact ite_congr (propext eq_comm) (fun _ => rfl) fun _ => rfl
  | removed user =>
      by_cases same : user = sid
      · subst same
        simp [record, View.record]
      · rw [record, OrderedMap.lookup_erase_of_ne (Ne.symm same), View.record,
          if_neg same]
  | _ => rfl

end Effect

end Susm.Host
