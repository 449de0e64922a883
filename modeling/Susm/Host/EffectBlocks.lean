import Susm.Host.KeptRegistrations

/-!
# What is done user by user

The host visits its users one after another.  What it does for one of them
leaves the others alone, so the observer of one user may skip the rest.
-/

namespace Susm.Host

open Susm.Foundation

def Effect.Concerns (sid : Sid) : Effect → Prop
  | .saved user _ | .removed user | .controller user .. => user = sid
  | .signaled _ | .waited _ | .detached _ => True
  | .sampled _ | .listed _ | .ended _ => False

namespace Registration

variable {registration : Registration} {sid : Sid} {logon : Logon}
  {managerSessionId : String} {session : Option Logon} {attempt : Attempt}

theorem persistRuntime_concerns :
    ∀ effect ∈ registration.persistRuntime sid, effect.Concerns sid := by
  intro effect h
  obtain ⟨session, -, rfl⟩ := List.mem_map.mp h
  rfl

theorem endRegistration_concerns : ∀ effect ∈
    (registration.endRegistration sid).2, effect.Concerns sid := by
  intro effect h
  rcases List.mem_append.mp h with ends | removed
  · rcases List.mem_append.mp ends with signaled | waited
    · obtain ⟨event, -, rfl⟩ := List.mem_map.mp signaled
      trivial
    · obtain ⟨runner, -, waited⟩ := List.mem_flatMap.mp waited
      unfold ControllerRunner.endSession at waited
      split at waited
      · rcases List.mem_pair.mp waited with rfl | rfl
        · trivial
        · rfl
      · cases List.mem_singleton.mp waited
        trivial
  · cases List.mem_singleton.mp removed
    rfl

theorem forgetPrevious_concerns : ∀ effect ∈
    (registration.forgetPrevious sid logon attempt).2,
      effect.Concerns sid := by
  unfold forgetPrevious signalPreviousSession
  split
  · exact List.forall_mem_nil _
  · split <;> simp [Effect.Concerns]

theorem fromToken_concerns {adopted : Option ProcessIdentity} : ∀ effect ∈
    (ControllerRunner.fromToken sid logon managerSessionId adopted attempt).2,
      effect.Concerns sid := by
  intro effect h
  rcases @ControllerRunner.fromToken_cases sid logon managerSessionId adopted
    attempt with nothing | ⟨initial, made⟩
  · rw [nothing] at h
    cases h
  · rw [made] at h
    rcases List.mem_append.mp h with controller | saved
    · obtain ⟨process, -, rfl⟩ := List.mem_map.mp controller
      rfl
    · cases List.mem_singleton.mp saved
      rfl

theorem start_concerns : ∀ effect ∈ (registration.start sid logon attempt).2,
    effect.Concerns sid := by
  have launches : ∀ other : Registration, ∀ effect ∈
      (other.launch sid logon attempt).2, effect.Concerns sid := by
    intro other effect h
    have made := @fromToken_concerns sid logon (other.nextId attempt) attempt
      other.recordedProcess
    simp only [launch] at h
    split at h
    · cases h
    split at h
    · rename_i effects hmade
      rw [hmade] at made
      exact made effect h
    · rename_i runner effects hmade
      rw [hmade] at made
      rcases List.mem_append.mp h with h | h
      · exact made effect h
      · exact persistRuntime_concerns effect h
  intro effect h
  by_cases windows : parsesWindows sid = true
  · rw [start_eq windows] at h
    rcases List.mem_append.mp h with h | h
    · exact forgetPrevious_concerns effect h
    · exact launches _ effect h
  · rw [start, if_neg windows] at h
    cases h

theorem settle_concerns : ∀ effect ∈
    (registration.settle sid session attempt).2, effect.Concerns sid := by
  unfold settle
  split
  · exact persistRuntime_concerns
  split
  · exact start_concerns
  · exact endRegistration_concerns
  · split
    · exact persistRuntime_concerns
    · exact endRegistration_concerns
  · exact List.forall_mem_nil _

theorem startNew_concerns : ∀ effect ∈
    (registration.startNew sid session attempt).2.1,
      effect.Concerns sid := by
  intro effect h
  cases session with
  | none => cases h
  | some logon =>
      have made := @fromToken_concerns sid logon attempt.uuid attempt none
      simp only [startNew] at h
      split at h
      · cases h
      split at h
      · rename_i effects hmade
        rw [hmade] at made
        exact made effect h
      · rename_i runner effects hmade
        rw [hmade] at made
        rcases List.mem_append.mp h with h | h
        · exact made effect h
        · exact persistRuntime_concerns effect h

theorem observe_concerns {runner : ControllerRunner}
    {process : Option ProcessIdentity} :
    ∀ effect ∈ (runner.observe sid process).2, effect.Concerns sid := by
  intro effect h
  rcases List.mem_append.mp h with controller | saved
  · split at controller
    · cases controller
    · obtain ⟨process, -, rfl⟩ := List.mem_map.mp controller
      rfl
  · cases List.mem_singleton.mp saved
    rfl

end Registration

/-! ## The other users -/

namespace View

variable {sid user : Sid} {view : View} {happened : List Effect}

theorem foreign {effect : Effect} (concerns : effect.Concerns user)
    (ne : user ≠ sid) :
    view.ledger.Allows sid effect ∧ view.observe sid effect = view := by
  cases effect with
  | sampled | listed | ended => exact concerns.elim
  | signaled | waited | detached => exact ⟨trivial, rfl⟩
  | controller other =>
      cases concerns
      exact ⟨fun same => absurd same ne, rfl⟩
  | saved other =>
      cases concerns
      refine ⟨trivial, ?_⟩
      simp [observe, Ledger.observe, record, ne]
  | removed other =>
      cases concerns
      refine ⟨trivial, ?_⟩
      simp [observe, Ledger.observe, record, ne]

theorem foreign_block (concerns : ∀ effect ∈ happened,
    ∃ user, user ≠ sid ∧ effect.Concerns user) :
    view.ledger.Admits sid happened ∧ view.after sid happened = view := by
  induction happened generalizing view with
  | nil => exact ⟨trivial, rfl⟩
  | cons effect happened ih =>
      rw [List.forall_mem_cons] at concerns
      obtain ⟨⟨user, ne, concern⟩, rest⟩ := concerns
      obtain ⟨allowed, stays⟩ := @foreign sid user view effect concern ne
      obtain ⟨admits, last⟩ := @ih view rest
      refine ⟨⟨allowed, ?_⟩, ?_⟩
      · have same : view.ledger.observe sid effect = view.ledger :=
          congrArg View.ledger stays
        rwa [same]
      · rw [after, List.foldl_cons, stays]
        exact last

theorem exists_own {controllers : OrderedMap Sid Registration}
    {visit : Sid → Registration → List Effect}
    (concerns : ∀ user registration, ∀ effect ∈ visit user registration,
      effect.Concerns user)
    (h : happened.Sublist
      (controllers.entries.flatMap fun entry => visit entry.1 entry.2)) :
    ∃ mine : List Effect,
      mine.Sublist ((controllers.lookup sid).elim [] (visit sid)) ∧
      (view.ledger.Admits sid mine → view.ledger.Admits sid happened) ∧
      view.after sid happened = view.after sid mine := by
  have others : ∀ entries : List (Sid × Registration),
      (∀ entry ∈ entries, entry.1 ≠ sid) → ∀ part : List Effect,
      part.Sublist (entries.flatMap fun entry => visit entry.1 entry.2) →
      ∀ effect ∈ part, ∃ user, user ≠ sid ∧ effect.Concerns user := by
    intro entries ne part hpart effect heffect
    obtain ⟨entry, hentry, hvisit⟩ :=
      List.mem_flatMap.mp (hpart.subset heffect)
    exact ⟨entry.1, ne entry hentry, concerns _ _ effect hvisit⟩
  cases held : controllers.lookup sid with
  | none =>
      have absent := OrderedMap.lookup_eq_none_iff.mp held
      have ne : ∀ entry ∈ controllers.entries, entry.1 ≠ sid := by
        rintro entry hentry rfl
        exact absent (List.mem_map_of_mem hentry)
      obtain ⟨admits, stays⟩ := foreign_block (others _ ne happened h)
      exact ⟨[], List.nil_sublist _, fun _ => admits, stays⟩
  | some registration =>
      have hmem := OrderedMap.lookup_eq_some_iff.mp held
      obtain ⟨earlier, later, hentries⟩ := List.append_of_mem hmem
      have distinct := controllers.nodup_keys
      rw [OrderedMap.keys, hentries, List.map_append, List.map_cons,
        List.nodup_middle, List.nodup_cons, ← List.map_append] at distinct
      have ne : ∀ entry ∈ earlier ++ later, entry.1 ≠ sid := by
        rintro entry hentry rfl
        exact distinct.1 (List.mem_map.mpr ⟨entry, hentry, rfl⟩)
      rw [hentries, List.flatMap_append, List.flatMap_cons] at h
      obtain ⟨first, rest, rfl, hfirst, hrest⟩ := List.sublist_append_iff.mp h
      obtain ⟨mine, last, rfl, hmine, hlast⟩ :=
        List.sublist_append_iff.mp hrest
      obtain ⟨start, skipped⟩ := @foreign_block sid view first
        (others earlier (fun entry h => ne entry (List.mem_append_left _ h))
          first hfirst)
      obtain ⟨finish, stays⟩ := @foreign_block sid (view.after sid mine) last
        (others later (fun entry h => ne entry (List.mem_append_right _ h))
          last hlast)
      refine ⟨mine, hmine, fun admits => ?_, ?_⟩
      · rw [Ledger.admits_append, Ledger.admits_append, ← after_ledger,
          ← after_ledger, skipped]
        exact ⟨start, admits, finish⟩
      · rw [after_append, after_append, skipped, stays]

end View

end Susm.Host
