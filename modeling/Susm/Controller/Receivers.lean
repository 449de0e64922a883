import Susm.Controller.Monitors

/-!
# Receivers of commands

What has been sent to a receiver stays sent, in order, and what it has put on
its stream stays there.  A receiver is dropped when its stream is closed and by
nothing else.  A policy is sent only while it is pending.
-/

namespace Susm.Controller

open Susm.Foundation
open Susm.Protocol

def ExecutionCommand.policy : ExecutionCommand → Option PolicyUpdate
  | .updatePolicy update => some update
  | .stop | .sessionEnding => none

/-- The commands sent to the receiver since it subscribed. -/
def Receiver.sent (receiver : Receiver) : List ExecutionCommand :=
  receiver.stream ++ receiver.queue

/-- The same receiver later on; of which kind the commands are that have been
sent in between. -/
structure Receiver.Grows (sends : ExecutionCommand → Prop)
    (before after : Receiver) : Prop where
  attachment : after.attachmentId = before.attachmentId
  execution : after.executionId = before.executionId
  stream : before.stream <+: after.stream
  sent : ∃ more, after.sent = before.sent ++ more ∧
    ∀ command ∈ more, sends command

namespace Receiver.Grows

variable {sends : ExecutionCommand → Prop}
  {before middle after : Receiver}

theorem refl (receiver : Receiver) : receiver.Grows sends receiver :=
  ⟨rfl, rfl, List.prefix_rfl, [], (List.append_nil _).symm, by simp⟩

theorem trans (first : before.Grows sends middle)
    (second : middle.Grows sends after) : before.Grows sends after := by
  obtain ⟨more, hmore, hsends⟩ := first.sent
  obtain ⟨rest, hrest, hothers⟩ := second.sent
  refine ⟨second.attachment.trans first.attachment,
    second.execution.trans first.execution, first.stream.trans second.stream,
    more ++ rest, ?_, fun command hcommand => ?_⟩
  · rw [hrest, hmore, List.append_assoc]
  · rcases List.mem_append.mp hcommand with hcommand | hcommand
    · exact hsends command hcommand
    · exact hothers command hcommand

theorem queued (receiver : Receiver) {command : ExecutionCommand}
    (h : sends command) :
    receiver.Grows sends
      { receiver with queue := receiver.queue ++ [command] } where
  attachment := rfl
  execution := rfl
  stream := List.prefix_rfl
  sent := ⟨[command], (List.append_assoc _ _ _).symm, by simpa using h⟩

theorem forwarded {receiver : Receiver} {command : ExecutionCommand}
    {queue : List ExecutionCommand}
    (waiting : receiver.queue = command :: queue) :
    receiver.Grows sends
      { receiver with
        queue := queue
        stream := receiver.stream ++ [command] } where
  attachment := rfl
  execution := rfl
  stream := List.prefix_append _ _
  sent := by
    refine ⟨[], ?_, by simp⟩
    unfold Receiver.sent
    rw [waiting, List.append_assoc, List.append_nil]
    rfl

end Receiver.Grows

namespace State

variable {host : Host} {state next : State} {attachmentId other id : String}
  {subscriber : Receiver}

def receiver (state : State) (attachmentId : String) : Option Receiver :=
  state.receivers.find? (·.attachmentId = attachmentId)

/-- A policy is still to be acknowledged by the supervisor of the execution. -/
def Syncs (state : State) (executionId : String) : Prop :=
  ∃ id active, state.active.lookup id = some active ∧
    active.executionId = executionId ∧ active.policySyncPending = true

def Sends (left : State) (executionId : String) (command : ExecutionCommand) :
    Prop :=
  command.policy.isSome → left.Syncs executionId

/-- The receiver of the attachment has not been dropped in a section, or a part
of one, that leaves the state. -/
def Keeps (left : State) (attachmentId : String) (state next : State) : Prop :=
  ∀ receiver, state.receiver attachmentId = some receiver →
    ∃ grown, next.receiver attachmentId = some grown ∧
      receiver.Grows (left.Sends receiver.executionId) grown

theorem receiver_attachment
    (found : state.receiver attachmentId = some subscriber) :
    subscriber.attachmentId = attachmentId := by
  simpa using List.find?_some found

theorem mem_of_receiver
    (found : state.receiver attachmentId = some subscriber) :
    subscriber ∈ state.receivers :=
  List.mem_of_find?_eq_some found

theorem receiver_map {update : Receiver → Receiver}
    (same : ∀ receiver, (update receiver).attachmentId = receiver.attachmentId)
    (mapped : next.receivers = state.receivers.map update) :
    next.receiver attachmentId =
      (state.receiver attachmentId).map update := by
  simp [State.receiver, mapped, List.find?_map, same]

theorem Sends.of_none {left : State} {executionId : String}
    {command : ExecutionCommand} (h : command.policy = none) :
    left.Sends executionId command := by
  intro hsome
  rw [h] at hsome
  cases hsome

theorem attachSupervisor_ok {hello : Hello} {stored : StoredExecution}
    {locallyOwned : Bool}
    (attached : state.attachSupervisor host hello stored attachmentId =
      .ok (locallyOwned, next)) :
    ∃ active, next = sendPending host
      { state.setActive stored.workloadId active with
        receivers :=
          state.receivers ++ [⟨attachmentId, hello.executionId, [], []⟩] }
      (stored.workloadId, active) := by
  unfold State.attachSupervisor at attached
  split at attached
  · cases attached
  split at attached
  · cases attached
  split at attached
  · cases attached
  cases attached
  exact ⟨_, rfl⟩

namespace Keeps

variable {left : State}

theorem of_receivers (same : next.receivers = state.receivers) :
    Keeps left attachmentId state next := by
  intro receiver hreceiver
  refine ⟨receiver, ?_, .refl receiver⟩
  rwa [State.receiver, same]

theorem refl (state : State) : Keeps left attachmentId state state :=
  of_receivers rfl

theorem trans {last : State} (first : Keeps left attachmentId state next)
    (second : Keeps left attachmentId next last) :
    Keeps left attachmentId state last := by
  intro receiver hreceiver
  obtain ⟨middle, hmiddle, hfirst⟩ := first receiver hreceiver
  obtain ⟨grown, hgrown, hsecond⟩ := second middle hmiddle
  rw [hfirst.execution] at hsecond
  exact ⟨grown, hgrown, hfirst.trans hsecond⟩

theorem of_map {update : Receiver → Receiver}
    (grows : ∀ receiver, state.receiver attachmentId = some receiver →
      receiver.Grows (left.Sends receiver.executionId) (update receiver))
    (same : ∀ receiver, (update receiver).attachmentId = receiver.attachmentId)
    (mapped : next.receivers = state.receivers.map update) :
    Keeps left attachmentId state next := by
  intro receiver hreceiver
  refine ⟨update receiver, ?_, grows receiver hreceiver⟩
  rw [receiver_map same mapped, hreceiver, Option.map_some]

theorem send (state : State) {executionId : String}
    {command : ExecutionCommand} (sends : left.Sends executionId command) :
    Keeps left attachmentId state (state.send executionId command) := by
  refine of_map (fun receiver _ => ?_) (fun receiver => ?_) rfl
  · split
    · rename_i hsame
      exact .queued receiver (hsame ▸ sends)
    · exact .refl receiver
  · split <;> rfl

theorem foldl {Item : Type} {advance : State → Item → State}
    {items : List Item}
    (keeps : ∀ state, ∀ item ∈ items,
      Keeps left attachmentId state (advance state item))
    (state : State) :
    Keeps left attachmentId state (items.foldl advance state) := by
  induction items generalizing state with
  | nil => exact refl state
  | cons item items ih =>
      exact (keeps state item List.mem_cons_self).trans
        (ih (fun state other hother =>
          keeps state other (List.mem_cons_of_mem item hother)) _)

theorem cancel (state : State) (id : String) (kind : WorkloadKind)
    (restartAfter : Bool) :
    Keeps left attachmentId state (state.cancel id kind restartAfter).2 := by
  unfold State.cancel
  split
  · exact refl state
  split
  · exact refl state
  split
  · exact refl state
  · exact send (State.cancelToken (State.setActive state id _) _)
      (Sends.of_none rfl)

theorem endSession (state : State) :
    Keeps left attachmentId state state.endSession := by
  unfold State.endSession
  split
  · exact refl state
  · dsimp only
    refine trans (of_receivers ?_) (trans (@foldl attachmentId left
      (String × ActiveExecution) (fun state entry =>
        (state.cancelToken entry.2.executionId).send entry.2.executionId
          .sessionEnding) _ (fun state entry _ => ?_) _) (of_receivers rfl))
    · rfl
    · exact send (state.cancelToken _) (Sends.of_none rfl)

theorem sendPending (state : State) {entry : String × ActiveExecution}
    (syncs : entry.2.policySyncPending = true →
      left.Syncs entry.2.executionId) :
    Keeps left attachmentId state (state.sendPending host entry) := by
  unfold State.sendPending
  split
  · exact refl state
  split
  · rename_i hpending
    exact send state fun _ => syncs hpending
  · exact refl state

theorem reconcileReload {state : State}
    (same : left.active = (state.reconcileReload host).2.active) :
    Keeps left attachmentId state (state.reconcileReload host).2 := by
  have hactive : left.active = state.active.mapValues fun id active =>
      reconcileActive host (state.definition id) active :=
    same.trans (foldl_same State.active
      (fun state entry => sendPending_active entry) _ _)
  unfold State.reconcileReload
  dsimp only
  refine trans (of_receivers ?_) (@foldl attachmentId left _
    (State.sendPending host) _ (fun state entry hentry =>
      sendPending state fun hpending => ⟨entry.1, entry.2, ?_, rfl, hpending⟩) _)
  · rfl
  · rw [hactive]
    exact Map.mem_toList.mp hentry

theorem keepReload (state : State) :
    Keeps (state.keepReload host) attachmentId state
      (state.keepReload host) := by
  have hkeeps : ∀ {left : State},
      left.active = (state.reconcileReload host).2.active →
      Keeps left attachmentId state (state.reconcileReload host).2 :=
    reconcileReload
  unfold State.keepReload
  split
  · rename_i next h
    rw [h] at hkeeps
    exact (hkeeps rfl).trans (of_receivers rfl)
  · rename_i next h
    rw [h] at hkeeps
    exact hkeeps rfl

theorem insertWorkloads (state : State)
    (persisted : List (String × StoredWorkload)) :
    Keeps left attachmentId state
      (persisted.foldl State.insertWorkload state) :=
  @foldl attachmentId left _ State.insertWorkload _
    (fun _ _ _ => of_receivers rfl) _

theorem applyReload (state : State)
    (persisted : List (String × StoredWorkload)) :
    Keeps (state.applyReload host persisted) attachmentId state
      (state.applyReload host persisted) :=
  (insertWorkloads state persisted).trans
    ((reconcileReload rfl).trans (of_receivers rfl))

theorem dropReceiver (state : State) (hne : other ≠ attachmentId) :
    Keeps left attachmentId state (state.dropReceiver other) := by
  intro receiver hreceiver
  refine ⟨receiver, ?_, .refl receiver⟩
  rw [State.receiver, State.dropReceiver, List.find?_filter, ← hreceiver]
  unfold State.receiver
  congr 1
  funext receiver
  by_cases h : receiver.attachmentId = attachmentId
  · simp [h, hne.symm]
  · simp [h]

theorem subscribe (added : Receiver)
    (subscribed : next.receivers = state.receivers ++ [added]) :
    Keeps left attachmentId state next := by
  intro receiver hreceiver
  refine ⟨receiver, ?_, .refl receiver⟩
  unfold State.receiver at hreceiver ⊢
  rw [subscribed, List.find?_append, hreceiver, Option.some_or]

theorem attachSupervisor {hello : Hello} {stored : StoredExecution}
    {locallyOwned : Bool}
    (attached : state.attachSupervisor host hello stored other =
      .ok (locallyOwned, next)) (same : left.active = next.active) :
    Keeps left attachmentId state next := by
  obtain ⟨active, rfl⟩ := attachSupervisor_ok attached
  refine trans (subscribe ⟨other, hello.executionId, [], []⟩ rfl)
    (sendPending _ fun hpending => ⟨stored.workloadId, active, ?_, rfl, hpending⟩)
  rw [same, sendPending_active]
  exact AList.lookup_insert _

end Keeps

theorem receiver_sendPending {subscribed : State}
    {entry : String × ActiveExecution} {added : Receiver}
    (found : subscribed.receiver attachmentId = some added)
    (entered : subscribed.active.lookup entry.1 = some entry.2) :
    ∃ receiver,
      (sendPending host subscribed entry).receiver attachmentId =
          some receiver ∧
        added.Grows ((sendPending host subscribed entry).Sends
          added.executionId) receiver := by
  refine Keeps.sendPending subscribed (fun hpending => ?_) added found
  refine ⟨entry.1, entry.2, ?_, rfl, hpending⟩
  rwa [sendPending_active]

theorem attachSupervisor_receiver {hello : Hello} {stored : StoredExecution}
    {locallyOwned : Bool}
    (unused : state.receivers.any (·.attachmentId = attachmentId) = false)
    (attached : state.attachSupervisor host hello stored attachmentId =
      .ok (locallyOwned, next)) :
    ∃ receiver, next.receiver attachmentId = some receiver ∧
      receiver.executionId = hello.executionId ∧
      ∀ command ∈ receiver.sent, next.Sends hello.executionId command := by
  obtain ⟨active, rfl⟩ := attachSupervisor_ok attached
  have hnone :
      state.receivers.find? (·.attachmentId = attachmentId) = none := by
    simpa using unused
  obtain ⟨receiver, hreceiver, grows⟩ := @receiver_sendPending host attachmentId
    { state.setActive stored.workloadId active with
      receivers :=
        state.receivers ++ [⟨attachmentId, hello.executionId, [], []⟩] }
    (stored.workloadId, active) ⟨attachmentId, hello.executionId, [], []⟩
    (by simp [State.receiver, hnone]) (AList.lookup_insert _)
  obtain ⟨more, hmore, hsends⟩ := grows.sent
  refine ⟨receiver, hreceiver, grows.execution, fun command hcommand => ?_⟩
  rw [hmore] at hcommand
  exact hsends command hcommand

theorem receiver_dropReceiver :
    (state.dropReceiver attachmentId).receiver attachmentId = none := by
  simp [State.receiver, State.dropReceiver]

/-! ### Methods that send nothing -/

theorem receivers_supervisorDisconnected {executionId : String} :
    (state.supervisorDisconnected executionId attachmentId).receivers =
      state.receivers := by
  unfold supervisorDisconnected
  split
  · rfl
  · split <;> rfl

theorem receivers_monitorTick {executionId : String} {now replacementAt : Nat}
    {wasRecovering : Bool} {tick : MonitorTick}
    (ticked : state.monitorTick executionId now replacementAt wasRecovering =
      (tick, next)) : next.receivers = state.receivers := by
  unfold monitorTick at ticked
  split at ticked
  · cases ticked
    rfl
  · dsimp only at ticked
    split at ticked <;> split at ticked <;> cases ticked <;> rfl

theorem receivers_setEnabled {enabled changed : Bool} :
    (state.setEnabled id enabled changed).2.receivers = state.receivers := by
  unfold setEnabled
  split
  · rfl
  · cases changed <;> rfl

theorem receivers_recordTerminal {executionId : String}
    {stored : StoredExecution} {outcome : StateName} :
    (state.recordTerminal executionId stored outcome).2.receivers =
      state.receivers := by
  unfold recordTerminal
  split <;> rfl

theorem receivers_recordProgress {executionId : String}
    {stored : StoredExecution} {observation : SupervisorObservation} :
    (state.recordProgress executionId stored observation).receivers =
      state.receivers := by
  unfold recordProgress
  split
  · rfl
  · dsimp only
    split
    · rfl
    · split <;> rfl

theorem receivers_supervisorTerminal {executionId : String}
    {stored : StoredExecution} {result : AttemptResult} {outcome : StateName}
    {restart : Bool}
    (removed : state.supervisorTerminal executionId stored result =
      some (outcome, restart, next)) : next.receivers = state.receivers := by
  obtain ⟨active, -, hremoved⟩ := Option.map_eq_some_iff.mp removed
  cases hremoved
  rfl

theorem receivers_completeExecution {executionId : String}
    {outcome : StateName} :
    (state.completeExecution id executionId outcome).2.receivers =
      state.receivers := by
  unfold completeExecution
  dsimp only
  split <;> rfl

theorem receivers_supervisorLaunching {executionId : String}
    {supervisorProcessId : Nat} :
    (state.supervisorLaunching id executionId
      supervisorProcessId).receivers = state.receivers := by
  unfold supervisorLaunching
  split <;> rfl

end State

/-! ## Sections and commands -/

section Sections

variable {host : Host} {session : String} {now : Nat} {answer : Answer}
  {situation : Situation} {outcome : Outcome} {task : ManagerTask}
  {attachmentId : String}

def ManagerTask.closes : ManagerTask → Option String
  | .streamClosed attachmentId _ => some attachmentId
  | _ => none

theorem startSection_receivers {id : String} {expectedKind : WorkloadKind}
    {exclusive : Bool} {enabledManagerSession : Option String}
    {next : List ManagerTask} :
    (startSection host session answer situation id expectedKind exclusive
      enabledManagerSession next).state.receivers =
        situation.state.receivers := by
  rcases start_cases host session answer situation.state situation.database id
    expectedKind exclusive enabledManagerSession with
    ⟨-, hstate, -⟩ | ⟨record, accepted, time, creates⟩
  · exact congrArg State.receivers hstate
  · exact (congrArg State.receivers creates.state).trans rfl

theorem Section.keeps
    (made : Section host session now answer situation task outcome)
    (goesOn : task.closes ≠ some attachmentId) :
    State.Keeps outcome.state attachmentId situation.state outcome.state := by
  cases made with
  | startService | startJob | rerunIdle | replacementStart =>
      exact .of_receivers startSection_receivers
  | applyReload => exact .applyReload _ _
  | keepReload => exact .keepReload _
  | setEnabled => exact .of_receivers State.receivers_setEnabled
  | rerunActive => exact .cancel _ _ _ _
  | monitorReplaces ticked =>
      exact .of_receivers (State.receivers_monitorTick ticked)
  | terminalRemoved removed =>
      exact .of_receivers (State.receivers_supervisorTerminal removed)
  | attached unused accepted =>
      exact (State.Keeps.attachSupervisor accepted rfl).trans
        (.of_receivers rfl)
  | attachedLocally unused accepted =>
      exact (State.Keeps.attachSupervisor accepted rfl).trans
        (.of_receivers rfl)
  | attachUnstored unused accepted =>
      by_cases hnew : answer.uuid = attachmentId
      · intro receiver hreceiver
        have hany : situation.state.receivers.any
            (·.attachmentId = answer.uuid) = true :=
          List.any_eq_true.mpr ⟨receiver, State.mem_of_receiver hreceiver, by
            simp [State.receiver_attachment hreceiver, hnew]⟩
        rw [unused] at hany
        cases hany
      · exact (State.Keeps.attachSupervisor accepted rfl).trans
          (.dropReceiver _ hnew)
  | @streamForwarded other _ receiver command queue found waiting =>
      refine .of_map (fun subscriber hsubscriber => ?_) (fun subscriber => ?_)
        rfl
      · split
        · rename_i hother
          have hsame : subscriber = receiver := by
            rw [State.receiver_attachment hsubscriber] at hother
            subst hother
            exact Option.some.inj (hsubscriber.symm.trans found)
          subst hsame
          exact .forwarded waiting
        · exact .refl subscriber
      · split <;> rfl
  | recordTerminal => exact .of_receivers State.receivers_recordTerminal
  | recordProgress => exact .of_receivers State.receivers_recordProgress
  | streamClosed =>
      refine (State.Keeps.of_receivers
        State.receivers_supervisorDisconnected).trans (.dropReceiver _ ?_)
      exact fun same => goesOn (congrArg some same)
  | runLaunching =>
      exact .of_receivers State.receivers_supervisorLaunching
  | completeRemoved => exact .of_receivers State.receivers_completeExecution
  | _ => exact .refl _

theorem Command.keeps (command : Command) :
    State.Keeps (command.perform host session answer situation).state
      attachmentId situation.state
      (command.perform host session answer situation).state := by
  cases command with
  | startService | runJob => exact .of_receivers startSection_receivers
  | stopService | cancelJob | restartService => exact .cancel _ _ _ _
  | setEnabled id enabled =>
      simp only [Command.perform]
      split <;> exact .refl _
  | endSession => exact .endSession _
  | _ => exact .refl _

end Sections

end Susm.Controller
