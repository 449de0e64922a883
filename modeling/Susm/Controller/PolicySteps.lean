import Susm.Controller.Heading
import Susm.Controller.SettledPolicies

/-!
# Policies in step

What counts as acknowledged stays what every living process of the execution has
or is going to have, as long as no process begins, no connection ends and no
hash comes to count while that fails.
-/

namespace Susm.Controller

open Susm.Foundation
open Susm.Protocol
open Susm.Supervisor

/-! ## The conditions -/

namespace Fleet

variable {host : Host} {fleet next : Fleet} {event : Event}

/-- The commands that are on their way to a process. -/
def incoming (fleet : Fleet) (enforcer : Enforcer) : List ExecutionCommand :=
  enforcer.inbox ++ enforcer.link.elim [] fleet.world.queue

/-- The hashes that count as acknowledged of a living process. -/
def settled (fleet : Fleet) (process : Nat) : List (List UInt8) :=
  match fleet.world.processes[process]? with
  | none => []
  | some started =>
      if started.alive then fleet.world.settled started.executionId else []

/-- What counts as acknowledged is what a process has or is going to have. -/
def InStep (host : Host) (fleet : Fleet) : Prop :=
  ∀ process enforcer hash, fleet.enforcers[process]? = some enforcer →
    hash ∈ fleet.settled process →
    enforcer.Heads host (fleet.incoming enforcer) hash

/-- A process begins with the policy that counts as acknowledged, if one
does. -/
def LaunchesInStep (host : Host) (fleet : Fleet) (event : Event) : Prop :=
  ∀ run ∈ fleet.world.launches event,
    ∀ hash ∈ fleet.world.settled run.executionId,
      (policyUpdate host run.definition).policyHash = hash

instance : Decidable (fleet.LaunchesInStep host event) :=
  inferInstanceAs (Decidable (∀ run ∈ fleet.world.launches event,
    ∀ hash ∈ _, _ = _))

/-- A stream that is closed has brought the policy that counts as
acknowledged. -/
def ClosesInStep (host : Host) (fleet : Fleet) (event : Event) : Prop :=
  ∀ attachmentId ∈ fleet.world.closes event,
    ∀ process < fleet.enforcers.length,
      ∀ enforcer ∈ fleet.enforcers[process]?,
        enforcer.link = some attachmentId →
          ∀ hash ∈ fleet.settled process,
            enforcer.Heads host enforcer.inbox hash

instance : Decidable (fleet.ClosesInStep host event) :=
  inferInstanceAs (Decidable (∀ attachmentId ∈ fleet.world.closes event,
    ∀ process < fleet.enforcers.length, ∀ enforcer ∈ fleet.enforcers[process]?,
      _ → ∀ hash ∈ fleet.settled process, _))

/-- An acknowledgement counts only for what the living processes of the
execution have or are going to have. -/
def ConfirmsInStep (host : Host) (fleet : Fleet) (event : Event) : Prop :=
  ∀ confirmed ∈ fleet.world.confirms event,
    ∀ process < fleet.enforcers.length,
      ∀ started ∈ fleet.world.processes[process]?,
        ∀ enforcer ∈ fleet.enforcers[process]?,
          started.alive → started.executionId = confirmed.1 →
            enforcer.Heads host (fleet.incoming enforcer) confirmed.2

instance : Decidable (fleet.ConfirmsInStep host event) :=
  inferInstanceAs (Decidable (∀ confirmed ∈ fleet.world.confirms event,
    ∀ process < fleet.enforcers.length,
      ∀ started ∈ fleet.world.processes[process]?,
        ∀ enforcer ∈ fleet.enforcers[process]?, _ → _ → _))

/-- The first reload is given up only when it had no hash to change, and the
hashes that it leaves are what the living processes have or are going to
have. -/
def ReloadsInStep (host : Host) (fleet : Fleet) (event : Event) : Prop :=
  ∀ state ∈ fleet.world.reloaded event,
    (fleet.world.abandons event = true → state.Agreed host) ∧
      ∀ process < fleet.enforcers.length,
        ∀ started ∈ fleet.world.processes[process]?,
          ∀ enforcer ∈ fleet.enforcers[process]?, started.alive →
            ∀ hash ∈ state.unchanged host started.executionId,
              enforcer.Heads host (fleet.incoming enforcer) hash

instance : Decidable (fleet.ReloadsInStep host event) :=
  inferInstanceAs (Decidable (∀ state ∈ fleet.world.reloaded event,
    (_ → _) ∧ ∀ process < fleet.enforcers.length,
      ∀ started ∈ fleet.world.processes[process]?,
        ∀ enforcer ∈ fleet.enforcers[process]?, _ →
          ∀ hash ∈ state.unchanged host started.executionId, _))

/-- The connection that is lost has brought the policy that counts as
acknowledged. -/
def DisconnectsInStep (host : Host) (fleet : Fleet) (process : Nat) : Prop :=
  ∀ enforcer ∈ fleet.enforcers[process]?, ∀ hash ∈ fleet.settled process,
    enforcer.Heads host [] hash

instance {process : Nat} : Decidable (fleet.DisconnectsInStep host process) :=
  inferInstanceAs (Decidable (∀ enforcer ∈ fleet.enforcers[process]?,
    ∀ hash ∈ fleet.settled process, _))

/-- A policy whose checkpoint cannot be written is not the one that counts as
acknowledged. -/
def RejectsInStep (host : Host) (fleet : Fleet) (process : Nat) : Prop :=
  ∀ enforcer ∈ fleet.enforcers[process]?,
    ∀ rejected ∈ enforcer.apply false, ∀ hash ∈ fleet.settled process,
      rejected.2.Heads host (fleet.incoming enforcer) hash

instance {process : Nat} : Decidable (fleet.RejectsInStep host process) :=
  inferInstanceAs (Decidable (∀ enforcer ∈ fleet.enforcers[process]?,
    ∀ rejected ∈ enforcer.apply false, ∀ hash ∈ fleet.settled process, _))

def Admits (host : Host) (fleet : Fleet) : FleetEvent → Prop
  | .world event _ =>
      fleet.LaunchesInStep host event ∧ fleet.ClosesInStep host event ∧
        fleet.ConfirmsInStep host event ∧ fleet.ReloadsInStep host event
  | .disconnect process => fleet.DisconnectsInStep host process
  | .apply process false _ => fleet.RejectsInStep host process
  | _ => True

instance : ∀ (fleet : Fleet) (event : FleetEvent),
    Decidable (Admits host fleet event)
  | fleet, .world event _ => inferInstanceAs (Decidable
      (fleet.LaunchesInStep host event ∧ fleet.ClosesInStep host event ∧
        fleet.ConfirmsInStep host event ∧ fleet.ReloadsInStep host event))
  | fleet, .disconnect process =>
      inferInstanceAs (Decidable (fleet.DisconnectsInStep host process))
  | fleet, .apply process false _ =>
      inferInstanceAs (Decidable (fleet.RejectsInStep host process))
  | _, .apply _ true _ | _, .receive _ | _, .startWriter _
  | _, .applyLogging _ | _, .endWriter _ => .isTrue trivial

/-! ## Steps of a process -/

/-- Every process has its enforcer, and a link listens to an attachment of the
execution. -/
structure Matched (fleet : Fleet) : Prop where
  length : fleet.enforcers.length = fleet.world.processes.length
  linked : ∀ (process : Nat) (enforcer : Enforcer) (attachmentId : String),
    fleet.enforcers[process]? = some enforcer →
    enforcer.link = some attachmentId →
    ∃ started receiver, fleet.world.processes[process]? = some started ∧
      fleet.world.receiver attachmentId = some receiver ∧
      receiver.executionId = started.executionId

theorem mem_settled {process : Nat} {hash : List UInt8} :
    hash ∈ fleet.settled process ↔ ∃ started,
      fleet.world.processes[process]? = some started ∧
        started.alive = true ∧
        hash ∈ fleet.world.settled started.executionId := by
  unfold settled
  cases fleet.world.processes[process]? with
  | none => simp
  | some started => cases h : started.alive <;> simp [h]

section Changes

variable {process : Nat} {enforcer changed : Enforcer}
  {update : Enforcer → Option Enforcer}

def replace (fleet : Fleet) (process : Nat) (changed : Enforcer) : Fleet :=
  { fleet with enforcers := fleet.enforcers.set process changed }

theorem change_eq_some (moved : fleet.change process update = some next) :
    ∃ enforcer changed, fleet.enforcers[process]? = some enforcer ∧
      update enforcer = some changed ∧ next = fleet.replace process changed := by
  unfold change at moved
  split at moved
  · obtain ⟨changed, hchanged, rfl⟩ := Option.map_eq_some_iff.mp moved
    obtain ⟨enforcer, hfound, hupdate⟩ := Option.bind_eq_some_iff.mp hchanged
    exact ⟨enforcer, changed, hfound, hupdate, rfl⟩
  · cases moved

theorem enforcers_replace {other : Nat} {after : Enforcer}
    (present : (fleet.replace process changed).enforcers[other]? =
      some after) :
    other = process ∧ after = changed ∨
      fleet.enforcers[other]? = some after := by
  rw [replace, List.getElem?_set] at present
  split at present
  · rename_i hsame
    split at present
    · cases present
      exact .inl ⟨hsame.symm, rfl⟩
    · cases present
  · exact .inr present

theorem InStep.replace (held : InStep host fleet)
    (found : fleet.enforcers[process]? = some enforcer)
    (keeps : ∀ hash ∈ fleet.settled process,
      enforcer.Heads host (fleet.incoming enforcer) hash →
      changed.Heads host (fleet.incoming changed) hash) :
    InStep host (fleet.replace process changed) := by
  intro other after hash present settled
  rcases enforcers_replace present with ⟨rfl, rfl⟩ | hbefore
  · exact keeps hash settled (held other enforcer hash found settled)
  · exact held other after hash hbefore settled

theorem Matched.replace (held : Matched fleet)
    (found : fleet.enforcers[process]? = some enforcer)
    (link : changed.link = enforcer.link ∨ changed.link = none) :
    Matched (fleet.replace process changed) := by
  constructor
  · exact (List.length_set).trans held.length
  · intro other after attachmentId present linked
    rcases enforcers_replace present with ⟨rfl, rfl⟩ | hbefore
    · rcases link with hsame | hnone
      · exact held.linked other enforcer attachmentId found
          (hsame.symm.trans linked)
      · cases hnone.symm.trans linked
    · exact held.linked other after attachmentId hbefore linked

end Changes

end Fleet

namespace Enforcer

variable {enforcer next : Enforcer} {update : PolicyUpdate}

/-! What a process does of its own leaves the link and the commands on their way
as they are, but for what is read and what is lost. -/

theorem receive_link (received : enforcer.receive = some next) :
    next.link = enforcer.link := by
  unfold receive at received
  split at received <;> cases received <;> rfl

theorem apply_same {checkpointed : Bool}
    (applied : enforcer.apply checkpointed = some (update, next)) :
    next.link = enforcer.link ∧ next.inbox = enforcer.inbox := by
  obtain ⟨taken, -, hnext⟩ := Option.map_eq_some_iff.mp applied
  cases hnext
  exact ⟨rfl, rfl⟩

theorem startWriter_same (started : enforcer.startWriter = some next) :
    next.link = enforcer.link ∧ next.inbox = enforcer.inbox := by
  unfold startWriter at started
  split at started <;> cases started
  exact ⟨rfl, rfl⟩

theorem applyLogging_same (applied : enforcer.applyLogging = some next) :
    next.link = enforcer.link ∧ next.inbox = enforcer.inbox := by
  obtain ⟨writer, -, hchanged⟩ := Option.bind_eq_some_iff.mp applied
  obtain ⟨taken, -, rfl⟩ := Option.map_eq_some_iff.mp hchanged
  exact ⟨rfl, rfl⟩

end Enforcer

namespace Fleet

variable {host : Host} {fleet next : Fleet}

theorem incoming_congr {first second : Enforcer}
    (same : second.link = first.link ∧ second.inbox = first.inbox) :
    fleet.incoming second = fleet.incoming first := by
  rw [incoming, incoming, same.1, same.2]

theorem step_own {event : FleetEvent}
    (own : ∀ worldly listening, event ≠ .world worldly listening)
    (matched : Matched fleet) (inStep : InStep host fleet)
    (admits : Admits host fleet event)
    (moved : Fleet.step host fleet event = some next) :
    next.world = fleet.world ∧ Matched next ∧ InStep host next := by
  cases event with
  | world worldly listening => exact absurd rfl (own worldly listening)
  | receive process =>
      obtain ⟨enforcer, changed, found, received, rfl⟩ := change_eq_some moved
      have link := Enforcer.receive_link received
      refine ⟨rfl, matched.replace found (.inl link),
        inStep.replace found fun hash _ heads => ?_⟩
      unfold incoming at heads ⊢
      rw [link]
      exact heads.receive received
  | disconnect process =>
      obtain ⟨enforcer, changed, found, hchanged, rfl⟩ := change_eq_some moved
      cases hchanged
      refine ⟨rfl, matched.replace found (.inr rfl),
        inStep.replace found fun hash settled _ => ?_⟩
      exact (admits enforcer found hash settled).congr rfl rfl
  | apply process checkpointed journaled =>
      obtain ⟨⟨update, changed⟩, happlied, moved⟩ :=
        Option.bind_eq_some_iff.mp moved
      obtain ⟨enforcer, found, applied⟩ := Option.bind_eq_some_iff.mp happlied
      obtain ⟨after, hafter, rfl⟩ := Option.map_eq_some_iff.mp moved
      obtain ⟨other, same, hfound, hsame, rfl⟩ := change_eq_some hafter
      cases hfound.symm.trans found
      cases hsame
      have kept := Enforcer.apply_same applied
      have matchedAfter := matched.replace found (.inl kept.1)
      have inStepAfter : InStep host (fleet.replace process changed) := by
        refine inStep.replace found fun hash settled heads => ?_
        rw [incoming_congr kept]
        cases checkpointed with
        | true => exact heads.apply applied
        | false => exact admits enforcer found _ applied hash settled
      split
      · exact ⟨rfl, ⟨matchedAfter.length, matchedAfter.linked⟩, inStepAfter⟩
      · exact ⟨rfl, matchedAfter, inStepAfter⟩
  | startWriter process =>
      obtain ⟨enforcer, changed, found, started, rfl⟩ := change_eq_some moved
      have kept := Enforcer.startWriter_same started
      refine ⟨rfl, matched.replace found (.inl kept.1),
        inStep.replace found fun hash _ heads => ?_⟩
      rw [incoming_congr kept]
      exact heads.startWriter started
  | applyLogging process =>
      obtain ⟨enforcer, changed, found, applied, rfl⟩ := change_eq_some moved
      have kept := Enforcer.applyLogging_same applied
      refine ⟨rfl, matched.replace found (.inl kept.1),
        inStep.replace found fun hash _ heads => ?_⟩
      rw [incoming_congr kept]
      exact heads.applyLogging applied
  | endWriter process =>
      obtain ⟨enforcer, changed, found, hchanged, rfl⟩ := change_eq_some moved
      cases hchanged
      refine ⟨rfl, matched.replace found (.inl rfl),
        inStep.replace found fun hash _ heads => ?_⟩
      exact heads.endWriter

/-! ## Steps of the world -/

inductive Followed (fleet : Fleet) (event : Event) (next : World)
    (process : Nat) : Enforcer → Prop where
  | kept {before : Enforcer}
      (found : fleet.enforcers[process]? = some before) :
      Followed fleet event next process (before.follow fleet.world next)
  | joined {before : Enforcer} {hello : Hello} {attachmentId : String}
      (found : fleet.enforcers[process]? = some before)
      (unlinked : before.link = none) (read : before.inbox = [])
      (subscribes :
        fleet.world.subscribes next event = some (hello, attachmentId))
      (asking : fleet.world.processes[process]? =
        some ⟨hello.executionId, hello.supervisorProcessId, true⟩) :
      Followed fleet event next process
        ((before.follow fleet.world next).join next attachmentId)
  | started {run : RunExecution} (last : process = fleet.enforcers.length)
      (launches : fleet.world.launches event = some run) :
      Followed fleet event next process (.start run.definition)

theorem enforcers_follow {event : Event} {next : World} {process : Nat}
    {enforcer : Enforcer}
    (found : (fleet.follow event next).enforcers[process]? = some enforcer) :
    (∃ before, fleet.enforcers[process]? = some before ∧
        enforcer = before.follow fleet.world next) ∨
      process = fleet.enforcers.length ∧ ∃ run,
        fleet.world.launches event = some run ∧
          enforcer = .start run.definition := by
  rw [follow, List.getElem?_append] at found
  split at found
  · rw [List.getElem?_map] at found
    obtain ⟨before, hbefore, rfl⟩ := Option.map_eq_some_iff.mp found
    exact .inl ⟨before, hbefore, rfl⟩
  · rename_i hlength
    rw [List.length_map] at found hlength
    cases hlaunches : fleet.world.launches event with
    | none => simp [hlaunches] at found
    | some run =>
        simp only [hlaunches, Option.map_some, Option.toList_some,
          List.getElem?_singleton] at found
        split at found
        · cases found
          exact .inr ⟨by omega, run, rfl, rfl⟩
        · cases found

theorem follow_followed {event : Event} {next : World} {process : Nat}
    {enforcer : Enforcer}
    (found : (fleet.follow event next).enforcers[process]? = some enforcer) :
    Followed fleet event next process enforcer := by
  rcases enforcers_follow found with
    ⟨before, hbefore, rfl⟩ | ⟨last, run, launches, rfl⟩
  · exact .kept hbefore
  · exact .started last launches

theorem step_world {event : Event} {listening : Option Nat}
    (moved : Fleet.step host fleet (.world event listening) = some next) :
    World.step host fleet.world event = some next.world ∧
      next.enforcers.length = fleet.enforcers.length +
        (fleet.world.launches event).toList.length ∧
      ∀ (process : Nat) (enforcer : Enforcer),
        next.enforcers[process]? = some enforcer →
        Followed fleet event next.world process enforcer := by
  have length : ∀ world, (fleet.follow event world).enforcers.length =
      fleet.enforcers.length +
        (fleet.world.launches event).toList.length := by
    intro world
    cases h : fleet.world.launches event <;> simp [follow, h]
  obtain ⟨world, hworld, moved⟩ := Option.bind_eq_some_iff.mp moved
  split at moved
  · cases listening with
    | none =>
        cases moved
        exact ⟨hworld, length world, fun _ _ => follow_followed⟩
    | some process =>
        simp only [listens] at moved
        split at moved
        · rename_i hello attachmentId asking before hsubscribes hasking hbefore
          split at moved
          · rename_i hidle
            cases moved
            obtain ⟨rfl, unlinked, read⟩ := hidle
            refine ⟨hworld, (List.length_modify _ _ _).trans (length world),
              fun other enforcer hother => ?_⟩
            rw [List.getElem?_modify] at hother
            obtain ⟨followed, hfollowed, rfl⟩ :=
              Option.map_eq_some_iff.mp hother
            split
            · rename_i hsame
              subst hsame
              rcases enforcers_follow hfollowed with
                ⟨kept, hkept, rfl⟩ | ⟨last, -⟩
              · cases hbefore.symm.trans hkept
                exact .joined hbefore unlinked read hsubscribes hasking
              · obtain ⟨hlt, -⟩ := List.getElem?_eq_some_iff.mp hbefore
                omega
            · exact follow_followed hfollowed
          · cases moved
        · cases moved
  · cases moved

section Steps

variable {event : Event} {world : World} {process : Nat}
  {started : SupervisorProcess} {before : Enforcer} {hash : List UInt8}
  {listening : Option Nat}

theorem incoming_none (unlinked : before.link = none) :
    fleet.incoming before = before.inbox := by
  rw [incoming, unlinked, Option.elim_none, List.append_nil]

theorem queue_eq {attachmentId : String} {receiver : Receiver}
    (found : world.receiver attachmentId = some receiver) :
    world.queue attachmentId = receiver.queue ∧
      world.stream attachmentId = receiver.stream := by
  rw [World.queue, World.stream, found]
  exact ⟨rfl, rfl⟩

theorem confirms_of_closes {attachmentId : String}
    (closes : fleet.world.closes event = some attachmentId) :
    fleet.world.confirms event = none := by
  obtain ⟨task, htask, hcloses⟩ := Option.bind_eq_some_iff.mp closes
  have hsilent : task.acknowledges = none := by
    unfold ManagerTask.closes at hcloses
    split at hcloses
    · rfl
    · cases hcloses
  simp [World.confirms, htask, hsilent]

/-- What is going to count as acknowledged is on its way before the step, and
nothing of it is lost with a stream. -/
theorem heads_before (reachable : World.Reachable host fleet.world)
    (inStep : InStep host fleet)
    (admits : Admits host fleet (.world event listening))
    (running : fleet.world.processes[process]? = some started)
    (alive : started.alive = true)
    (found : fleet.enforcers[process]? = some before)
    (settles : World.SettlesPolicy host fleet.world event started.executionId
      hash) :
    before.Heads host (fleet.incoming before) hash ∧
      ∀ attachmentId, fleet.world.closes event = some attachmentId →
        before.link = some attachmentId →
        before.Heads host before.inbox hash := by
  obtain ⟨launches, closes, confirms, reloads⟩ := admits
  obtain ⟨hprocess, -⟩ := List.getElem?_eq_some_iff.mp found
  cases settles with
  | kept hsettled =>
      have hmem : hash ∈ fleet.settled process :=
        mem_settled.mpr ⟨started, running, alive, hsettled⟩
      exact ⟨inStep process before hash found hmem,
        fun attachmentId hcloses hlink =>
          closes attachmentId hcloses process hprocess before found hlink hash
            hmem⟩
  | confirmed hconfirms =>
      refine ⟨confirms _ hconfirms process hprocess started running before found
        alive rfl, fun attachmentId hcloses _ => ?_⟩
      rw [confirms_of_closes hcloses] at hconfirms
      cases hconfirms
  | begun unused =>
      obtain ⟨id, row, hrow, -⟩ := reachable.processesRecorded started
        (List.mem_of_getElem? running)
      cases unused.symm.trans hrow
  | @reloaded state hreloaded hsettled =>
      obtain ⟨agreed, heads⟩ := reloads state hreloaded
      have hunchanged : hash ∈ state.unchanged host started.executionId :=
        hsettled.elim (fun h => (agreed h.1).unchanged h.2) id
      refine ⟨heads process hprocess started running before found alive hash
        hunchanged, fun attachmentId hcloses _ => ?_⟩
      obtain ⟨task, htask, first⟩ := World.reloaded_task hreloaded
      obtain ⟨closing, hclosing, hcloses⟩ := Option.bind_eq_some_iff.mp hcloses
      cases htask.symm.trans hclosing
      unfold ManagerTask.closes at hcloses
      split at hcloses
      · cases first
      · cases hcloses

theorem incoming_follow {sends : ExecutionCommand → Prop}
    {attachmentId : String} {receiver grown : Receiver}
    (linked : before.link = some attachmentId)
    (found : fleet.world.receiver attachmentId = some receiver)
    (after : world.receiver attachmentId = some grown)
    (grows : receiver.Grows sends grown) :
    ∃ more, (fleet.follow event world).incoming
        (before.follow fleet.world world) = fleet.incoming before ++ more ∧
      ∀ command ∈ more, sends command := by
  obtain ⟨brought, hbrought⟩ := grows.stream
  obtain ⟨more, hmore, hsends⟩ := grows.sent
  have hqueue : brought ++ grown.queue = receiver.queue ++ more := by
    have hsent := hmore
    unfold Receiver.sent at hsent
    rw [← hbrought, List.append_assoc, List.append_assoc] at hsent
    exact List.append_cancel_left hsent
  have hnext : (fleet.follow event world).world.queue attachmentId =
      grown.queue := (queue_eq after).1
  refine ⟨more, ?_, hsends⟩
  simp only [incoming, Enforcer.follow, linked, Option.elim_some, after,
    Option.isSome_some, Option.filter_some, if_true]
  rw [(queue_eq found).1, (queue_eq found).2, (queue_eq after).2, ← hbrought,
    List.drop_left, hnext, List.append_assoc, hqueue, List.append_assoc]

theorem incoming_gone
    (gone : ∀ attachmentId, before.link = some attachmentId →
      world.receiver attachmentId = none) :
    (fleet.follow event world).incoming (before.follow fleet.world world) =
      before.inbox := by
  cases hlink : before.link with
  | none => simp [incoming, Enforcer.follow, hlink]
  | some attachmentId =>
      simp [incoming, Enforcer.follow, hlink, gone attachmentId hlink,
        World.stream, Option.filter_some]

theorem heads_follow {manager : Manager} (moved : World.Moved host fleet.world
      event world)
    (recorded : World.AllRecorded world) (matched : Matched fleet)
    (running : fleet.world.processes[process]? = some started)
    (found : fleet.enforcers[process]? = some before)
    (runs : world.controller = some manager)
    (settled : hash ∈ world.settled started.executionId)
    (heads : before.Heads host (fleet.incoming before) hash)
    (unclosed : ∀ attachmentId, fleet.world.closes event = some attachmentId →
      before.link = some attachmentId →
      before.Heads host before.inbox hash) :
    (before.follow fleet.world world).Heads host
      ((fleet.follow event world).incoming (before.follow fleet.world world))
      hash := by
  cases hlink : before.link with
  | none =>
      rw [incoming_none hlink] at heads
      rw [incoming_gone fun _ h => by cases hlink.symm.trans h]
      exact heads.congr rfl rfl
  | some attachmentId =>
      obtain ⟨other, receiver, hother, hreceiver, hexecution⟩ :=
        matched.linked process before attachmentId found hlink
      cases running.symm.trans hother
      rcases moved.receiver hreceiver with hcloses | hgone | hgrown
      · rw [incoming_gone fun _ h => by
          cases hlink.symm.trans h
          exact moved.closed hcloses]
        exact (unclosed attachmentId hcloses hlink).congr rfl rfl
      · cases runs.symm.trans hgone
      · obtain ⟨after, grown, hafter, hgrown, grows⟩ := hgrown
        cases runs.symm.trans hafter
        obtain ⟨more, hincoming, hsends⟩ :=
          incoming_follow hlink hreceiver hgrown grows
        rw [hincoming]
        refine (heads.append fun command hcommand => ?_).congr rfl rfl
        refine World.silent_of_settled recorded runs settled ?_
        rw [← hexecution]
        exact hsends command hcommand

theorem heads_join {attachmentId : String} {hello : Hello} {manager : Manager}
    (moved : World.Moved host fleet.world event next.world)
    (recorded : World.AllRecorded next.world)
    (runs : next.world.controller = some manager)
    (unlinked : before.link = none) (read : before.inbox = [])
    (subscribes : fleet.world.subscribes next.world event =
      some (hello, attachmentId))
    (settled : hash ∈ next.world.settled hello.executionId)
    (heads : before.Heads host (fleet.incoming before) hash) :
    let joined :=
      (before.follow fleet.world next.world).join next.world attachmentId
    joined.Heads host (next.incoming joined) hash := by
  obtain ⟨after, receiver, hruns, hreceiver, -, hsends⟩ :=
    moved.subscribes subscribes
  cases runs.symm.trans hruns
  rw [incoming_none unlinked, read] at heads
  intro joined
  have hincoming : next.incoming joined = [] ++ receiver.sent := by
    simp only [joined, incoming, Enforcer.join, Option.elim_some,
      List.nil_append, Receiver.sent]
    rw [(queue_eq hreceiver).1, (queue_eq hreceiver).2]
  rw [hincoming]
  refine (heads.append fun command hcommand => ?_).congr rfl rfl
  exact World.silent_of_settled recorded runs settled (hsends command hcommand)

theorem heads_start (reachable : World.Reachable host fleet.world)
    {run : RunExecution} (launches : fleet.world.launches event = some run)
    (admits : fleet.LaunchesInStep host event)
    (settles : World.SettlesPolicy host fleet.world event run.executionId hash) :
    (Enforcer.start run.definition).Heads host [] hash := by
  obtain ⟨manager, running, hadvanced, htask⟩ :=
    World.launches_eq_some launches
  have hdigest : (policyUpdate host run.definition).policyHash = hash := by
    cases settles with
    | kept settled => exact admits run launches hash settled
    | confirmed hconfirms =>
        simp [World.confirms, hadvanced, ManagerTask.acknowledges] at hconfirms
    | begun unused =>
        obtain ⟨row, hrow, -⟩ :=
          (reachable.recorded manager running).tasks _ htask _ _ rfl
        cases unused.symm.trans hrow
    | reloaded hreloaded =>
        obtain ⟨task, hother, first⟩ := World.reloaded_task hreloaded
        cases hadvanced.symm.trans hother
        cases first
  subst hdigest
  exact ⟨rfl, fun _ hwriter => by cases hwriter⟩

theorem Matched.step_world (matched : Matched fleet)
    (moved : Fleet.step host fleet (.world event listening) = some next) :
    Matched next := by
  obtain ⟨hworld, hlength, hfollowed⟩ := Fleet.step_world moved
  have launched := World.step_launches hworld
  have turned := World.step_moved hworld
  constructor
  · rw [hlength, matched.length, launched.length]
  · intro process enforcer attachmentId found linked
    cases hfollowed process enforcer found with
    | @kept before hbefore =>
        obtain ⟨hlink, hreceiver⟩ := Option.filter_eq_some_iff.mp linked
        obtain ⟨started, receiver, hstarted, hfound, hexecution⟩ :=
          matched.linked process before attachmentId hbefore hlink
        obtain ⟨after, hafter, hsame⟩ := launched.after hstarted
        rcases turned.receiver hfound with hcloses | hgone | hgrown
        · rw [turned.closed hcloses] at hreceiver
          cases hreceiver
        · rw [World.receiver, hgone] at hreceiver
          cases hreceiver
        · obtain ⟨manager, grown, -, hgrown, grows⟩ := hgrown
          exact ⟨after, grown, hafter, hgrown,
            grows.execution.trans (hexecution.trans hsame.symm)⟩
    | joined hbefore unlinked read subscribes asking =>
        cases linked
        obtain ⟨manager, receiver, -, hreceiver, hexecution, -⟩ :=
          turned.subscribes subscribes
        obtain ⟨after, hafter, hsame⟩ := launched.after asking
        exact ⟨after, receiver, hafter, hreceiver,
          hexecution.trans hsame.symm⟩
    | started => cases linked

/-- A process that is alive after a step and had an enforcer before was alive
before. -/
theorem Matched.alive_before (matched : Matched fleet)
    (moved : World.step host fleet.world event = some world)
    (found : fleet.enforcers[process]? = some before)
    (present : world.processes[process]? = some started)
    (alive : started.alive = true) :
    ∃ earlier, fleet.world.processes[process]? = some earlier ∧
      earlier.alive = true ∧ earlier.executionId = started.executionId := by
  rcases (World.step_launches moved).before present with
    ⟨earlier, hearlier, hsame, halive⟩ | ⟨rfl, -⟩
  · exact ⟨earlier, hearlier, halive alive, hsame⟩
  · obtain ⟨hlt, -⟩ := List.getElem?_eq_some_iff.mp found
    rw [matched.length] at hlt
    omega

theorem InStep.step_world (reachable : World.Reachable host fleet.world)
    (matched : Matched fleet) (inStep : InStep host fleet)
    (admits : Admits host fleet (.world event listening))
    (moved : Fleet.step host fleet (.world event listening) = some next) :
    InStep host next := by
  obtain ⟨hworld, hlength, hfollowed⟩ := Fleet.step_world moved
  have turned := World.step_moved hworld
  have recorded : World.AllRecorded next.world :=
    World.Reachable.recorded (reachable.tail trivial hworld)
  intro process enforcer hash found settled
  obtain ⟨after, hafter, alive, hsettled⟩ := mem_settled.mp settled
  have settles := World.step_settled hworld hsettled
  obtain ⟨manager, -, runs, -, -⟩ := World.mem_settled.mp hsettled
  cases hfollowed process enforcer found with
  | @kept before hbefore =>
      obtain ⟨started, hstarted, halive, hsame⟩ :=
        matched.alive_before hworld hbefore hafter alive
      rw [← hsame] at settles hsettled
      obtain ⟨heads, unclosed⟩ := heads_before reachable inStep admits
        hstarted halive hbefore settles
      exact heads_follow turned recorded matched hstarted hbefore runs hsettled
        heads unclosed
  | @joined before hello attachmentId hbefore unlinked read subscribes asking =>
      obtain ⟨started, hstarted, halive, hsame⟩ :=
        matched.alive_before hworld hbefore hafter alive
      rw [← hsame] at settles hsettled
      obtain ⟨heads, -⟩ := heads_before reachable inStep admits
        hstarted halive hbefore settles
      cases asking.symm.trans hstarted
      exact heads_join turned recorded runs unlinked read subscribes hsettled
        heads
  | @started run last launches =>
      rcases (World.step_launches hworld).before hafter with
        ⟨started, hstarted, -⟩ | ⟨-, other, hother, hsame⟩
      · obtain ⟨hlt, -⟩ := List.getElem?_eq_some_iff.mp hstarted
        rw [← matched.length] at hlt
        omega
      · cases launches.symm.trans hother
        rw [hsame] at settles
        exact heads_start reachable launches admits.1 settles

end Steps

end Fleet

end Susm.Controller
