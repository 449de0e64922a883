import Susm.Host.HostRpc
import Mathlib.Data.List.Flatten

/-!
# The end of all sessions

When the machine shuts down the host ends the registrations one after another,
and ending one of them joins the thread of its runner.  A user whose event
comes after another user's runner is told only after that runner has ended.
-/

namespace Susm.Host

open Susm.Foundation

namespace Effect

def isSignal : Effect → Bool
  | .signaled _ => true
  | _ => false

def isWait : Effect → Bool
  | .waited _ => true
  | _ => false

end Effect

/-- Nothing is signaled once a runner has been waited for. -/
def SignalsFirst (trace : List Effect) : Prop :=
  trace.Pairwise fun earlier later =>
    earlier.isWait = true → later.isSignal = false

instance (trace : List Effect) : Decidable (SignalsFirst trace) :=
  inferInstanceAs (Decidable (List.Pairwise _ trace))

theorem SignalsFirst.append {told joined : List Effect}
    (noWait : ∀ effect ∈ told, effect.isWait = false)
    (noSignal : ∀ effect ∈ joined, effect.isSignal = false) :
    SignalsFirst (told ++ joined) := by
  refine List.pairwise_append.mpr ⟨?_, ?_, ?_⟩
  · refine List.pairwise_of_forall_mem_list fun earlier hearlier later _ => ?_
    simp [noWait earlier hearlier]
  · exact List.pairwise_of_forall_mem_list fun _ _ later hlater _ =>
      noSignal later hlater
  · exact fun _ _ later hlater _ => noSignal later hlater

namespace Registration

variable {registration : Registration} {sid : Sid}

theorem exists_isSignal_iff : (∃ effect ∈ (registration.endRegistration sid).2,
    effect.isSignal = true) ↔ registration.endingEvent.isSome := by
  cases event : registration.endingEvent <;>
    cases runner : registration.runner <;>
    simp [endRegistration, event, runner, Effect.isSignal,
      ControllerRunner.endSession]

theorem exists_isWait_iff : (∃ effect ∈ (registration.endRegistration sid).2,
    effect.isWait = true) ↔ registration.runner.isSome := by
  cases event : registration.endingEvent <;>
    cases runner : registration.runner <;>
    simp [endRegistration, event, runner, Effect.isWait,
      ControllerRunner.endSession]

theorem endRegistration_signalsFirst :
    SignalsFirst (registration.endRegistration sid).2 := by
  rw [endRegistration, List.append_assoc]
  apply SignalsFirst.append
  · simp [Effect.isWait]
  · cases registration.runner <;>
      simp [ControllerRunner.endSession, or_imp, forall_and, Effect.isSignal]

theorem countP_isWait : (registration.endRegistration sid).2.countP
    Effect.isWait = if registration.runner.isSome then 1 else 0 := by
  have joined : ∀ runner : ControllerRunner,
      (runner.endSession sid).countP Effect.isWait = 1 := by
    intro runner
    unfold ControllerRunner.endSession
    split <;> rfl
  cases event : registration.endingEvent <;>
    cases runner : registration.runner <;>
    simp [endRegistration, event, runner, Effect.isWait, joined]

end Registration

namespace HostRpc

variable {host : HostRpc}

def ends (entries : List (Sid × Registration)) : List Effect :=
  entries.flatMap fun entry => (entry.2.endRegistration entry.1).2

theorem signalsFirst_ends (entries : List (Sid × Registration)) :
    SignalsFirst (ends entries) ↔
      entries.Pairwise fun earlier later =>
        earlier.2.runner.isSome → later.2.endingEvent = none := by
  rw [SignalsFirst, ends, List.pairwise_flatMap]
  constructor
  · rintro ⟨-, across⟩
    refine across.imp fun {earlier later} apart live => ?_
    obtain ⟨wait, hwait, waits⟩ :=
      (@Registration.exists_isWait_iff _ earlier.1).mpr live
    by_contra event
    obtain ⟨signal, hsignal, signals⟩ :=
      (@Registration.exists_isSignal_iff _ later.1).mpr
        (Option.isSome_iff_ne_none.mpr event)
    exact Bool.false_ne_true
      ((apart wait hwait signal hsignal waits).symm.trans signals)
  · intro apart
    refine ⟨fun _ _ => Registration.endRegistration_signalsFirst, ?_⟩
    refine apart.imp fun {earlier later} quiet => ?_
    intro wait hwait signal hsignal waits
    have live := Registration.exists_isWait_iff.mp ⟨wait, hwait, waits⟩
    by_contra signals
    have event := Registration.exists_isSignal_iff.mp
      ⟨signal, hsignal, eq_true_of_ne_false signals⟩
    simp [quiet live] at event

/-- The order is right exactly when no event is left for after a runner. -/
theorem endAll_signalsFirst_iff (host : HostRpc) :
    SignalsFirst host.endAll.2 ↔
      host.controllers.entries.Pairwise fun earlier later =>
        earlier.2.runner.isSome → later.2.endingEvent = none :=
  signalsFirst_ends host.controllers.entries

def twoUsers : HostRpc where
  controllers := (OrderedMap.empty.insert "S-1-5-21-1"
      (Registration.empty.started "one" ⟨1, 100⟩
        ⟨"one", ⟨1, 100⟩, some ⟨11, 1⟩⟩)).insert "S-1-5-21-2"
    (Registration.empty.started "two" ⟨2, 200⟩
      ⟨"two", ⟨2, 200⟩, some ⟨22, 2⟩⟩)
  endingWindowsSessions := ∅

theorem endAll_twoUsers : ¬ SignalsFirst twoUsers.endAll.2 := by
  decide

theorem countP_ends (entries : List (Sid × Registration)) :
    (ends entries).countP Effect.isWait =
      entries.countP fun entry => entry.2.runner.isSome := by
  induction entries with
  | nil => rfl
  | cons entry entries ih =>
      rw [ends, List.flatMap_cons, ← ends, List.countP_append, ih,
        Registration.countP_isWait, List.countP_cons, Nat.add_comm]

/-- A user is told after as many joins as there are live users before. -/
theorem endAll_joins {before after : List (Sid × Registration)} {sid : Sid}
    {registration : Registration} {event : EndingEvent}
    (entries : host.controllers.entries =
      before ++ (sid, registration) :: after)
    (held : registration.endingEvent = some event) :
    ∃ later, host.endAll.2 = ends before ++ .signaled event :: later ∧
      (ends before).countP Effect.isWait =
        before.countP fun entry => entry.2.runner.isSome := by
  have signaled : ∃ rest, (registration.endRegistration sid).2 =
      .signaled event :: rest := by
    rw [Registration.endRegistration, held]
    exact ⟨_, rfl⟩
  obtain ⟨rest, hrest⟩ := signaled
  refine ⟨rest ++ ends after, ?_, countP_ends before⟩
  rw [endAll, entries, List.flatMap_append, List.flatMap_cons, hrest,
    List.cons_append]
  rfl

def live (host : HostRpc) : Nat :=
  host.controllers.entries.countP fun entry => entry.2.runner.isSome

/-- Where events come with runners, the order is right for one live user. -/
theorem endAll_signalsFirst_iff_live
    (paired : ∀ entry ∈ host.controllers.entries,
      entry.2.endingEvent.isSome = entry.2.runner.isSome) :
    SignalsFirst host.endAll.2 ↔ host.live ≤ 1 := by
  change SignalsFirst (ends host.controllers.entries) ↔ _
  rw [signalsFirst_ends, live]
  generalize host.controllers.entries = entries at paired
  induction entries with
  | nil => simp
  | cons entry entries ih =>
      rw [List.forall_mem_cons] at paired
      have quiet : (∀ later ∈ entries, later.2.endingEvent = none) ↔
          entries.countP (fun entry => entry.2.runner.isSome) = 0 := by
        rw [List.countP_eq_zero]
        refine forall₂_congr fun later hlater => ?_
        rw [← paired.2 later hlater, Option.not_isSome_iff_eq_none]
      rw [List.pairwise_cons, List.countP_cons, ih paired.2]
      by_cases live : entry.2.runner.isSome = true
      · rw [if_pos live]
        simp only [live, forall_const, quiet]
        omega
      · rw [if_neg live]
        simp [live]

end HostRpc

end Susm.Host
