import Susm.Controller.Frames
import Susm.Controller.Owners

/-!
# Cancellation tokens

Only a stop or the end of the session cancels a token, and a controller that
ends its session does not take that back.  The cancelled tokens are those of
executions that have rows, so that the token of a new execution is not.
-/

namespace Susm.Controller

open Susm.Foundation
open Susm.Protocol

namespace State

def marks (state : State) : List String × Bool :=
  (state.cancelled, state.sessionEnding)

variable {host : Host} {state : State} {id executionId token : String}

theorem marks_congr {after : State} (same : after.frame = state.frame) :
    after.marks = state.marks :=
  congrArg (fun frame => (frame.1, frame.2.1)) same

theorem marks_applyReload {persisted : List (String × StoredWorkload)} :
    (state.applyReload host persisted).marks = state.marks := by
  refine (marks_congr frame_reconcileReload).trans ?_
  refine foldl_same State.marks ?_ persisted state
  intro state item
  rfl

theorem marks_setEnabled {enabled changed : Bool} :
    (state.setEnabled id enabled changed).2.marks = state.marks := by
  unfold setEnabled
  split
  · rfl
  · cases changed <;> rfl

theorem cancelled_cancel {expectedKind : WorkloadKind} {restartAfter : Bool}
    (h : token ∈ (state.cancel id expectedKind restartAfter).2.cancelled) :
    token ∈ state.cancelled ∨ state.activeId id = some token := by
  unfold cancel at h
  split at h
  · exact .inl h
  split at h
  · exact .inl h
  split at h
  · exact .inl h
  rename_i active hactive
  rcases List.mem_cons.mp h with rfl | h
  · exact .inr (activeId_eq_some.mpr ⟨active, hactive, rfl⟩)
  · exact .inl h

theorem sessionEnding_cancel {expectedKind : WorkloadKind}
    {restartAfter : Bool} :
    (state.cancel id expectedKind restartAfter).2.sessionEnding =
      state.sessionEnding := by
  unfold cancel
  split
  · rfl
  split
  · rfl
  split <;> rfl

theorem sessionEnding_endSession (state : State) :
    state.endSession.sessionEnding = true := by
  unfold endSession
  split
  · assumption
  · refine foldl_same State.sessionEnding ?_ state.active.toList _
    intro state entry
    rfl

theorem cancelled_endSession (h : token ∈ state.endSession.cancelled) :
    token ∈ state.cancelled ∨ ∃ id, state.activeId id = some token := by
  unfold endSession at h
  split at h
  · exact .inl h
  have ended : ∀ (entries : List (String × ActiveExecution)) (first : State),
      token ∈ (entries.foldl (fun state entry =>
        (state.cancelToken entry.2.executionId).send entry.2.executionId
          .sessionEnding) first).cancelled →
      token ∈ first.cancelled ∨
        ∃ entry ∈ entries, entry.2.executionId = token := by
    intro entries
    induction entries with
    | nil => exact fun _ h => .inl h
    | cons entry entries ih =>
        intro first h
        rcases ih _ h with h | ⟨other, hother, hid⟩
        · rcases List.mem_cons.mp h with rfl | h
          · exact .inr ⟨entry, List.mem_cons_self, rfl⟩
          · exact .inl h
        · exact .inr ⟨other, List.mem_cons_of_mem _ hother, hid⟩
  rcases ended _ _ h with h | ⟨⟨other, active⟩, hmem, hid⟩
  · exact .inl h
  · exact .inr ⟨other,
      activeId_eq_some.mpr ⟨active, Map.mem_toList.mp hmem, hid⟩⟩

end State

/-! ## Sections -/

section Sections

variable {host : Host} {session : String} {now : Nat} {answer : Answer}
  {situation : Situation} {outcome : Outcome} {task : ManagerTask}
  {token : String}

theorem Section.marks
    (made : Section host session now answer situation task outcome) :
    outcome.state.marks = situation.state.marks ∨ ∃ id,
      outcome.state = (situation.state.cancel id .job true).2 := by
  cases made.frame with
  | kept same => exact .inl (State.marks_congr same)
  | cancelled reruns stops => exact .inr ⟨_, stops⟩
  | enabled sets result => exact .inl (result ▸ State.marks_setEnabled)
  | installed reloads result => exact .inl (result ▸ State.marks_applyReload)

theorem Section.cancelled
    (made : Section host session now answer situation task outcome)
    (h : token ∈ outcome.state.cancelled) :
    token ∈ situation.state.cancelled ∨
      ∃ id, situation.state.activeId id = some token := by
  rcases made.marks with hsame | ⟨id, hstate⟩
  · have hcancelled : outcome.state.cancelled = situation.state.cancelled :=
      congrArg Prod.fst hsame
    exact .inl (hcancelled ▸ h)
  · rw [hstate] at h
    rcases State.cancelled_cancel h with h | h
    · exact .inl h
    · exact .inr ⟨id, h⟩

theorem Section.sessionEnding
    (made : Section host session now answer situation task outcome) :
    outcome.state.sessionEnding = situation.state.sessionEnding := by
  rcases made.marks with hsame | ⟨id, hstate⟩
  · exact congrArg Prod.snd hsame
  · rw [hstate]
    exact State.sessionEnding_cancel

theorem Command.sessionEnding (command : Command)
    (ending : situation.state.sessionEnding = true) :
    (command.perform host session answer situation).state.sessionEnding =
      true := by
  rcases Command.frame host session answer situation command with
    hsame | ⟨id, kind, restartAfter, hstate⟩ | hstate
  · exact (congrArg Prod.snd (State.marks_congr hsame)).trans ending
  · rw [hstate]
    exact State.sessionEnding_cancel.trans ending
  · rw [hstate]
    exact State.sessionEnding_endSession _

theorem Command.cancelled (command : Command)
    (h : token ∈
      (command.perform host session answer situation).state.cancelled) :
    token ∈ situation.state.cancelled ∨
      ∃ id, situation.state.activeId id = some token := by
  rcases Command.frame host session answer situation command with
    hsame | ⟨id, kind, restartAfter, hstate⟩ | hstate
  · have hcancelled : _ = situation.state.cancelled :=
      congrArg Prod.fst hsame
    exact .inl (hcancelled ▸ h)
  · rw [hstate] at h
    rcases State.cancelled_cancel h with h | h
    · exact .inl h
    · exact .inr ⟨id, h⟩
  · rw [hstate] at h
    exact State.cancelled_endSession h

end Sections

namespace World

variable {host : Host} {world next : World} {event : Event}

/-- Every cancelled token is the token of an execution that has a row. -/
def TokensKnown (world : World) : Prop :=
  ∀ manager, world.controller = some manager →
    ∀ token ∈ manager.state.cancelled, Known world.database token

theorem TokensKnown.step (reachable : Reachable host world)
    (held : TokensKnown world) (moved : step host world event = some next) :
    TokensKnown next := by
  have made := step_moved moved
  have stays : ∀ {token : String}, Known world.database token →
      Known next.database token := by
    rintro token ⟨workloadId, hrow⟩
    exact ⟨workloadId, made.hasRow reachable.hasOutcome hrow⟩
  have active : ∀ {manager : Manager} {token : String},
      world.controller = some manager →
      token ∈ manager.state.cancelled ∨
        (∃ id, manager.state.activeId id = some token) →
      Known next.database token := by
    rintro manager token running (h | ⟨id, h⟩)
    · exact stays (held manager running token h)
    · exact stays ⟨id, (reachable.recorded manager running).entries id token h⟩
  intro after runs token htoken
  cases made with
  | elapsed | processExited => exact active runs (.inl htoken)
  | controllerExited => cases runs
  | startup closed =>
      obtain ⟨state, hstate, rfl⟩ := Option.map_eq_some_iff.mp runs
      rw [(openManager_fresh hstate).2.1] at htoken
      cases htoken
  | command running serving =>
      cases runs
      exact active running (Command.cancelled _ htoken)
  | attach running serving =>
      cases runs
      exact active running (.inl htoken)
  | advance running found made =>
      cases runs
      exact active running (made.cancelled htoken)

theorem Reachable.tokensKnown (reachable : Reachable host world) :
    TokensKnown world := by
  refine Reachable.invariant ?_ Runs.refl reachable ?_
  · intro world event next hreachable held _ moved
    exact held.step hreachable moved
  · intro manager running
    cases running

end World

end Susm.Controller
