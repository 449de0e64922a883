import Susm.Host.Ledger
import Susm.Host.Reconciliation

/-!
# Registrations that keep their manager session

What is known of a user's logon is explained by the registration, whose runner
is that of the logon.  Each way in which the host deals with a registration
keeps it so, whichever of the writes to the registry succeed.
-/

namespace Susm.Host

open Susm.Foundation

theorem RuntimeSession.of_binding {managerSessionId : String} {logon : Logon}
    {identity : Option ProcessIdentity} (named : managerSessionId ≠ "") :
    (RuntimeSession.of managerSessionId logon identity).binding =
      some (managerSessionId, logon) :=
  if_neg named

/-- The controller is launched, whatever becomes of its runner. -/
def Attempt.reaches (attempt : Attempt) : Bool :=
  attempt.endingEvent && attempt.duplicated && attempt.localAppData &&
    attempt.selected

namespace Registration

def binding (registration : Registration) : Option (String × Logon) :=
  registration.runtimeSession.bind RuntimeSession.binding

variable {registration : Registration} {sid : Sid} {logon : Logon}
  {managerSessionId : String} {session : Option Logon} {attempt : Attempt}
  {marks wider : Finset Logon} {view : View} {happened : List Effect}

theorem runtimeSession_eq_some (bound : registration.Bound logon) :
    registration.runtimeSession = some (.of registration.managerSessionId
      logon ((registration.runner.bind ControllerRunner.process).or
        registration.recordedProcess)) := by
  simp [runtimeSession, bound.1, bound.2]

theorem binding_of_bound (bound : registration.Bound logon) :
    registration.binding = if registration.managerSessionId = "" then none
      else some (registration.managerSessionId, logon) := by
  rw [binding, runtimeSession_eq_some bound]
  rfl

theorem binding_eq_some_iff :
    registration.binding = some (managerSessionId, logon) ↔
      registration.Bound logon ∧
        registration.managerSessionId = managerSessionId ∧
          managerSessionId ≠ "" := by
  constructor
  · intro h
    cases windows : registration.windowsSessionId with
    | none => simp [binding, runtimeSession, windows] at h
    | some windowsSessionId =>
        cases authentication : registration.authenticationId with
        | none =>
            simp [binding, runtimeSession, windows, authentication] at h
        | some authenticationId =>
            have bound : registration.Bound
                ⟨windowsSessionId, authenticationId⟩ :=
              ⟨windows, authentication⟩
            rw [binding_of_bound bound] at h
            split at h
            · cases h
            · rename_i named
              cases h
              exact ⟨bound, rfl, named⟩
  · rintro ⟨bound, rfl, named⟩
    rw [binding_of_bound bound, if_neg named]

theorem binding_congr {other : Registration}
    (managerSessionId : other.managerSessionId = registration.managerSessionId)
    (windows : other.windowsSessionId = registration.windowsSessionId)
    (authentication :
      other.authenticationId = registration.authenticationId) :
    other.binding = registration.binding := by
  apply Option.ext
  rintro ⟨id, logon⟩
  rw [binding_eq_some_iff, binding_eq_some_iff, Bound, Bound, managerSessionId,
    windows, authentication]

/-- The registration and its runner explain what is known of the user. -/
structure Kept (marks : Finset Logon) (registration : Registration)
    (view : View) : Prop where
  explained : view.Explained marks registration.binding
  coherent : registration.Coherent
  unmarked : ∀ runner ∈ registration.runner, runner.logon ∉ marks

structure Advances (sid : Sid) (marks : Finset Logon)
    (registration : Registration) (view : View) (happened : List Effect) :
    Prop where
  admits : view.ledger.Admits sid happened
  kept : registration.Kept marks (view.after sid happened)

theorem Advances.append {first second : List Effect}
    (later : registration.Advances sid marks (view.after sid first) second)
    (admits : view.ledger.Admits sid first) :
    registration.Advances sid marks view (first ++ second) := by
  refine ⟨Ledger.admits_append.mpr ⟨admits, ?_⟩, ?_⟩
  · rw [← View.after_ledger]
    exact later.admits
  · rw [View.after_append]
    exact later.kept

theorem Advances.of_own {mine : List Effect}
    (own : registration.Advances sid marks view mine)
    (admits : view.ledger.Admits sid mine → view.ledger.Admits sid happened)
    (after : view.after sid happened = view.after sid mine) :
    registration.Advances sid marks view happened :=
  ⟨admits own.admits, after ▸ own.kept⟩

theorem Kept.advances (kept : registration.Kept marks view) :
    registration.Advances sid marks view [] :=
  ⟨trivial, kept⟩

theorem persist_fits : ∀ effect ∈ registration.persistRuntime sid,
    View.Fits sid marks registration.binding view.ledger effect := by
  intro effect heffect
  obtain ⟨session, held, rfl⟩ := List.mem_map.mp heffect
  rw [Option.mem_toList] at held
  intro _
  rw [binding, held]
  exact .inl rfl

theorem Kept.persist (kept : registration.Kept marks view)
    (h : happened.Sublist (registration.persistRuntime sid)) :
    registration.Advances sid marks view happened := by
  obtain ⟨admits, explained, -⟩ := kept.explained.block fun effect heffect =>
    persist_fits effect (h.subset heffect)
  exact ⟨admits, explained, kept.coherent, kept.unmarked⟩

theorem advances_end (explained : view.Explained marks none)
    (gone : ∀ runner ∈ registration.runner,
      runner.logon ∈ marks ∨ ¬ view.ledger.Present runner.logon)
    (h : happened.Sublist (registration.endRegistration sid).2) :
    (registration.endRegistration sid).1.Advances sid marks view happened := by
  have fits : ∀ effect ∈ happened,
      View.Fits sid marks none view.ledger effect := by
    intro effect heffect
    rcases List.mem_append.mp (h.subset heffect) with ends | removed
    · rcases List.mem_append.mp ends with signaled | waited
      · obtain ⟨event, -, rfl⟩ := List.mem_map.mp signaled
        trivial
      · obtain ⟨runner, held, waited⟩ := List.mem_flatMap.mp waited
        rw [Option.mem_toList] at held
        unfold ControllerRunner.endSession at waited
        split at waited
        · rcases List.mem_pair.mp waited with rfl | rfl
          · trivial
          · exact fun _ => .inr ⟨rfl, gone runner held⟩
        · cases List.mem_singleton.mp waited
          trivial
    · cases List.mem_singleton.mp removed
      exact fun _ => rfl
  obtain ⟨admits, explained, -⟩ := explained.block fits
  exact ⟨admits, explained, endRegistration_coherent, nofun⟩

theorem forgetPrevious_fits : ∀ effect ∈
    (registration.forgetPrevious sid logon attempt).2,
      View.Fits sid marks none view.ledger effect := by
  unfold forgetPrevious signalPreviousSession
  split
  · exact List.forall_mem_nil _
  · split <;> simp [View.Fits]

theorem fromToken_fits {adopted : Option ProcessIdentity} {ledger : Ledger}
    (named : managerSessionId ≠ "") (unmarked : logon ∉ marks) :
    ∀ effect ∈ (ControllerRunner.fromToken sid logon managerSessionId adopted
      attempt).2, View.Fits sid marks (some (managerSessionId, logon)) ledger
        effect := by
  have observed : ∀ initial, ∀ effect ∈ (ControllerRunner.observed sid logon
      managerSessionId initial attempt).2, View.Fits sid marks
        (some (managerSessionId, logon)) ledger effect := by
    intro initial effect h
    rcases List.mem_append.mp h with controller | saved
    · obtain ⟨process, -, rfl⟩ := List.mem_map.mp controller
      refine fun _ => ⟨unmarked, ?_⟩
      rintro _ ⟨⟩
      rfl
    · cases List.mem_singleton.mp saved
      exact fun _ => .inl (RuntimeSession.of_binding named)
  rcases @ControllerRunner.fromToken_cases sid logon managerSessionId adopted
    attempt with nothing | ⟨initial, h⟩
  · rw [nothing]
    exact List.forall_mem_nil _
  · rw [h]
    exact observed initial

theorem started_binding {runner : ControllerRunner}
    (named : managerSessionId ≠ "") :
    (registration.started managerSessionId logon runner).binding =
      some (managerSessionId, logon) :=
  binding_eq_some_iff.mpr ⟨⟨rfl, rfl⟩, rfl, named⟩

theorem advances_started {initial : Option ProcessIdentity}
    {effects : List Effect} (named : managerSessionId ≠ "")
    (unmarked : logon ∉ marks)
    (explained : view.Explained marks (some (managerSessionId, logon)))
    (fits : ∀ effect ∈ effects, View.Fits sid marks
      (some (managerSessionId, logon)) view.ledger effect)
    (h : happened.Sublist (effects ++ (registration.started managerSessionId
      logon ⟨managerSessionId, logon, initial⟩).persistRuntime sid)) :
    (registration.started managerSessionId logon
      ⟨managerSessionId, logon, initial⟩).Advances sid marks view
        happened := by
  obtain ⟨first, second, rfl, hfirst, hsecond⟩ := List.sublist_append_iff.mp h
  have binding := @started_binding registration logon managerSessionId
    ⟨managerSessionId, logon, initial⟩ named
  obtain ⟨admits, explained, -⟩ := explained.block fun effect heffect =>
    fits effect (hfirst.subset heffect)
  have kept : (registration.started managerSessionId logon
      ⟨managerSessionId, logon, initial⟩).Kept marks
        (view.after sid first) := by
    refine ⟨by rwa [binding], ?_, ?_⟩
    · rintro _ ⟨⟩
      exact ⟨rfl, rfl, rfl⟩
    · rintro _ ⟨⟩
      exact unmarked
  exact (kept.persist hsecond).append admits

theorem fromToken_some {adopted : Option ProcessIdentity}
    {runner : ControllerRunner} {effects : List Effect}
    (h : ControllerRunner.fromToken sid logon managerSessionId adopted
      attempt = (some runner, effects)) :
    ∃ initial, runner = ⟨managerSessionId, logon, initial⟩ := by
  rcases @ControllerRunner.fromToken_cases sid logon managerSessionId adopted
    attempt with nothing | ⟨initial, made⟩
  · cases nothing.symm.trans h
  · rw [made, ControllerRunner.observed] at h
    split at h <;> cases h
    exact ⟨initial, rfl⟩

theorem fromToken_none {adopted : Option ProcessIdentity}
    {effects : List Effect}
    (h : ControllerRunner.fromToken sid logon managerSessionId adopted
      attempt = (none, effects)) : effects = [] ∨ attempt.spawned = false := by
  rcases @ControllerRunner.fromToken_cases sid logon managerSessionId adopted
    attempt with nothing | ⟨initial, made⟩
  · cases nothing.symm.trans h
    exact .inl rfl
  · rw [made, ControllerRunner.observed] at h
    split at h
    · cases h
    · rename_i unspawned
      exact .inr (eq_false_of_ne_true unspawned)

theorem nextId_ne (registration : Registration) (attempt : Attempt) :
    registration.nextId attempt ≠ "" := by
  unfold nextId
  split
  · exact attempt.uuid.2
  · assumption

theorem advances_launch (idle : registration.runner = none)
    (unmarked : logon ∉ marks)
    (explained : view.Explained marks registration.binding)
    (next : view.Explained marks (some (registration.nextId attempt, logon)))
    (spawned : attempt.spawned = true ∨
      registration.binding = some (registration.nextId attempt, logon))
    (h : happened.Sublist (registration.launch sid logon attempt).2) :
    (registration.launch sid logon attempt).1.Advances sid marks view
      happened := by
  have named := nextId_ne registration attempt
  have fits := @fromToken_fits sid logon _ attempt marks
    registration.recordedProcess view.ledger named unmarked
  have silent : ∀ taken : Registration, taken.runner = none →
      taken.binding = registration.binding → happened = [] →
        taken.Advances sid marks view happened := by
    rintro taken none same rfl
    refine Kept.advances ⟨same ▸ explained, ?_, ?_⟩ <;> simp [none, Coherent]
  simp only [launch] at h ⊢
  split at h
  · rename_i failed
    rw [if_pos failed]
    exact silent registration idle rfl (List.sublist_nil.mp h)
  · rename_i created
    rw [if_neg created]
    have taken : ({ registration with recordedProcess := none } :
        Registration).binding = registration.binding :=
      binding_congr rfl rfl rfl
    split at h
    · rename_i effects made
      rw [made] at fits
      rcases fromToken_none made with rfl | unspawned
      · exact silent _ idle taken (List.sublist_nil.mp h)
      · have bound := spawned.resolve_left (by simp [unspawned])
        obtain ⟨admits, last, -⟩ := next.block fun effect heffect =>
          fits effect (h.subset heffect)
        refine ⟨admits, ?_, ?_, ?_⟩
        · rwa [taken, bound]
        · simp [Coherent, idle]
        · simp [idle]
    · rename_i runner effects made
      rw [made] at fits
      obtain ⟨initial, rfl⟩ := fromToken_some made
      exact advances_started named unmarked next fits h

theorem advances_start (kept : registration.Kept marks view)
    (idle : registration.runner = none) (unmarked : logon ∉ marks)
    (only : ∀ other id, view.ledger.known other = some id → other ∉ marks →
      other = logon)
    (spawned : attempt.spawned = true ∨
      registration.Bound logon ∧ registration.managerSessionId ≠ "")
    (h : happened.Sublist (registration.start sid logon attempt).2) :
    (registration.start sid logon attempt).1.Advances sid marks view
      happened := by
  by_cases windows : parsesWindows sid = true
  · rw [start_eq windows] at h ⊢
    obtain ⟨first, second, rfl, hfirst, hsecond⟩ :=
      List.sublist_append_iff.mp h
    by_cases same :
        registration.authenticationId = some logon.authenticationId
    · have stays : registration.forgetPrevious sid logon attempt =
          (registration, []) := if_pos same
      rw [stays] at hfirst hsecond ⊢
      cases List.sublist_nil.mp hfirst
      refine advances_launch idle unmarked kept.explained ?_ ?_ hsecond
      · refine ⟨kept.explained.ended, fun other id known free => ?_⟩
        obtain ⟨binding, saved⟩ := kept.explained.known other id known free
        obtain ⟨-, rfl, named⟩ := binding_eq_some_iff.mp binding
        rw [nextId, if_neg named, only other _ known free]
        exact ⟨rfl, only other _ known free ▸ saved⟩
      · refine spawned.imp_right fun ⟨bound, named⟩ => ?_
        rw [nextId, if_neg named]
        exact binding_eq_some_iff.mpr ⟨bound, rfl, named⟩
    · have nothing : view.Explained marks none := by
        refine ⟨kept.explained.ended, fun other id known free => ?_⟩
        obtain ⟨binding, -⟩ := kept.explained.known other id known free
        have bound := (binding_eq_some_iff.mp binding).1
        rw [only other id known free] at bound
        exact absurd bound.2 same
      obtain ⟨admits, explained, -⟩ := nothing.block fun effect heffect =>
        forgetPrevious_fits effect (hfirst.subset heffect)
      have forgotten : (registration.forgetPrevious sid logon
          attempt).1.runner = none := by
        rw [forgetPrevious, if_neg same]
        exact idle
      have ready := spawned.resolve_right fun held => same held.1.2
      exact (advances_launch forgotten unmarked explained.of_none
        explained.of_none (.inl ready) hsecond).append admits
  · rw [start, if_neg windows] at h ⊢
    cases List.sublist_nil.mp h
    exact kept.advances

theorem advances_settle (kept : registration.Kept marks view)
    (present : ∀ other id, view.ledger.known other = some id →
      view.ledger.Present other)
    (session_of : registration.sessionConflict = false →
      ∀ other, view.ledger.Present other → other ∉ marks →
        session = some other)
    (sound : registration.sessionConflict = false →
      registration.runner = none → ∀ logon, session = some logon →
        logon ∉ marks ∧ (attempt.spawned = true ∨
          registration.Bound logon ∧ registration.managerSessionId ≠ ""))
    (h : happened.Sublist (registration.settle sid session attempt).2) :
    (registration.settle sid session attempt).1.Advances sid marks view
      happened := by
  cases free : registration.sessionConflict with
  | true =>
      rw [settle_conflict free] at h ⊢
      exact kept.persist h
  | false =>
      cases hrunner : registration.runner with
      | none =>
          have idle : registration.runner.isSome = false := by
            rw [hrunner, Option.isSome_none]
          cases session with
          | none =>
              rw [settle_absent free idle] at h ⊢
              cases List.sublist_nil.mp h
              exact kept.advances
          | some logon =>
              rw [settle_start free idle] at h ⊢
              obtain ⟨unmarked, spawned⟩ := sound free hrunner logon rfl
              refine advances_start kept hrunner unmarked ?_ spawned h
              intro other id known open_
              exact (Option.some_inj.mp
                (session_of free other (present other id known) open_)).symm
      | some runner =>
          have runs : registration.runner.isSome = true := by
            rw [hrunner, Option.isSome_some]
          by_cases fits :
              ∃ logon, session = some logon ∧ registration.Bound logon
          · obtain ⟨logon, rfl, bound⟩ := fits
            rw [settle_bound free runs bound] at h ⊢
            exact kept.persist h
          · have unbound : ∀ logon, session = some logon →
                ¬ registration.Bound logon :=
              fun logon h bound => fits ⟨logon, h, bound⟩
            rw [settle_end free runs unbound] at h ⊢
            refine advances_end ⟨kept.explained.ended, ?_⟩ ?_ h
            · intro other id known open_
              have bound := (binding_eq_some_iff.mp
                (kept.explained.known other id known open_).1).1
              exact absurd bound (unbound other
                (session_of free other (present other id known) open_))
            · rintro held hheld
              cases hrunner.symm.trans hheld
              refine .inr fun here => ?_
              exact unbound _ (session_of free _ here
                (kept.unmarked _ hheld)) (kept.coherent _ hheld).2

theorem fromToken_unreached (reaches : attempt.reaches = false)
    (created : attempt.endingEvent = true) :
    ControllerRunner.fromToken sid logon managerSessionId none attempt =
      (none, []) := by
  unfold ControllerRunner.fromToken
  split
  · rfl
  · rename_i duplicated
    rw [not_or, Bool.not_eq_false, Bool.not_eq_false] at duplicated
    simp [Attempt.reaches, created, duplicated.1, duplicated.2] at reaches
    simp [reaches]

theorem advances_startNew (kept : registration.Kept marks view)
    (sound : attempt.reaches = true → ∀ logon, session = some logon →
      logon ∉ marks ∧ attempt.spawned = true ∧ view.Explained marks none)
    (h : happened.Sublist (registration.startNew sid session attempt).2.1) :
    (registration.startNew sid session attempt).1.Advances sid marks view
      happened := by
  cases session with
  | none =>
      cases List.sublist_nil.mp h
      exact kept.advances
  | some logon =>
      simp only [startNew] at h ⊢
      split at h
      · rename_i failed
        rw [if_pos failed]
        cases List.sublist_nil.mp h
        exact kept.advances
      · rename_i created
        rw [if_neg created]
        cases hreaches : attempt.reaches with
        | false =>
            rw [fromToken_unreached hreaches (Bool.not_eq_false _ ▸ created)]
              at h ⊢
            cases List.sublist_nil.mp h
            exact kept.advances
        | true =>
            obtain ⟨unmarked, spawned, nothing⟩ := sound hreaches logon rfl
            have named := attempt.uuid.2
            have fits := @fromToken_fits sid logon _ attempt marks none
              view.ledger named unmarked
            split at h
            · rename_i effects made
              rcases fromToken_none made with rfl | unspawned
              · cases List.sublist_nil.mp h
                exact kept.advances
              · simp [spawned] at unspawned
            · rename_i runner effects made
              rw [made] at fits
              obtain ⟨initial, rfl⟩ := fromToken_some made
              exact advances_started named unmarked nothing.of_none fits h

theorem advances_observe {runner : ControllerRunner}
    {process : Option ProcessIdentity} (kept : registration.Kept marks view)
    (held : registration.runner = some runner)
    (h : happened.Sublist (runner.observe sid process).2) :
    { registration with
      runner := some (runner.observe sid process).1 }.Advances sid marks view
        happened := by
  obtain ⟨same, bound⟩ := kept.coherent runner held
  have unmarked := kept.unmarked runner held
  have binding := binding_of_bound bound
  have fits : ∀ effect ∈ (runner.observe sid process).2,
      View.Fits sid marks registration.binding view.ledger effect := by
    intro effect heffect
    rcases List.mem_append.mp heffect with controller | saved
    · split at controller
      · cases controller
      · obtain ⟨process, -, rfl⟩ := List.mem_map.mp controller
        refine fun _ => ⟨unmarked, fun (id, logon) held => ?_⟩
        obtain ⟨also, rfl, -⟩ := binding_eq_some_iff.mp held
        rw [same, bound.unique also]
    · cases List.mem_singleton.mp saved
      refine fun _ => .inl ?_
      rw [binding, ← same]
      rfl
  obtain ⟨admits, explained, -⟩ := kept.explained.block fun effect heffect =>
    fits effect (h.subset heffect)
  have rebound : ({ registration with
      runner := some (runner.observe sid process).1 } :
        Registration).binding = registration.binding :=
    binding_congr rfl rfl rfl
  refine ⟨admits, rebound ▸ explained, ?_, ?_⟩
  · rintro _ ⟨⟩
    exact ⟨same, bound⟩
  · rintro _ ⟨⟩
    exact unmarked

theorem restored_binding {saved : Option RuntimeSession} :
    (restored saved).binding = saved.bind RuntimeSession.binding := by
  cases saved with
  | none => rfl
  | some session =>
      rfl

theorem kept_restored {registration : Option (String × Logon)}
    (explained : view.Explained marks registration) :
    (restored view.saved).Kept marks view := by
  refine ⟨⟨explained.ended, fun logon id known free => ?_⟩, nofun, nofun⟩
  obtain ⟨-, session, saved, binding⟩ := explained.known logon id known free
  rw [restored_binding, saved]
  exact ⟨binding, session, rfl, binding⟩

/-! ## What is read, and what is marked -/

theorem Kept.sampled {users : List (Sid × Logon)}
    (kept : registration.Kept marks view)
    {kept_marks : Finset Logon} (narrower : kept_marks ⊆ marks)
    (stays : ∀ logon ∈ marks, logon ∈ users.map Prod.snd →
      logon ∈ kept_marks) :
    registration.Kept kept_marks (view.observe sid (.sampled users)) := by
  refine ⟨⟨?_, ?_⟩, kept.coherent, fun runner held marked =>
    kept.unmarked runner held (narrower marked)⟩
  · intro logon h
    obtain ⟨ended, here⟩ := Finset.mem_filter.mp h
    exact stays logon (kept.explained.ended ended) here
  · intro logon id known free
    have here := Ledger.present_of_known known
    simp only [View.observe, Ledger.observe,
      if_pos (mem_logonsOf.mpr here)] at known
    refine kept.explained.known logon id known fun marked => free ?_
    exact stays logon marked (List.mem_map.mpr ⟨_, here, rfl⟩)

theorem explained_unlisted {sids : List Sid}
    (kept : registration.Kept marks view) (h : sid ∉ sids) :
    (view.observe sid (.listed sids)).Explained marks none := by
  simp only [View.observe, Ledger.observe, if_neg h]
  refine ⟨kept.explained.ended, ?_⟩
  intro logon id known
  cases known

theorem kept_empty (nothing : view.Explained marks none) :
    empty.Kept marks view :=
  ⟨nothing, nofun, nofun⟩

theorem Kept.widen (kept : registration.Kept marks view)
    (wider_marks : marks ⊆ wider)
    (unmarked : ∀ runner ∈ registration.runner, runner.logon ∉ wider) :
    registration.Kept wider view :=
  ⟨⟨kept.explained.ended.trans wider_marks, fun logon id known free =>
      kept.explained.known logon id known fun marked =>
        free (wider_marks marked)⟩,
    kept.coherent, unmarked⟩

theorem Kept.ended (kept : registration.Kept marks view)
    (marked : ∀ effect ∈ happened, ∃ logon ∈ marks, effect = .ended logon) :
    registration.Advances sid marks view happened := by
  induction happened generalizing view with
  | nil => exact kept.advances
  | cons effect happened ih =>
      rw [List.forall_mem_cons] at marked
      obtain ⟨⟨logon, hmarked, rfl⟩, later⟩ := marked
      have first : registration.Kept marks
          (view.observe sid (.ended logon)) := by
        refine ⟨⟨?_, kept.explained.known⟩, kept.coherent, kept.unmarked⟩
        exact Finset.insert_subset hmarked kept.explained.ended
      have rest := ih first later
      exact ⟨⟨trivial, rest.admits⟩, rest.kept⟩

end Registration

end Susm.Host
