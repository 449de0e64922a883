import Susm.Host.HostRpc

/-!
# The manager session of a logon

An observer follows the effects of the host on behalf of one user.  As long as
a logon stays in the inventory and its user is registered, the observer holds
the host to the identifier that was last saved for the logon, and to the end
of the logon once it was marked as ending.
-/

namespace Susm.Host

open Susm.Foundation

def RuntimeSession.binding (session : RuntimeSession) :
    Option (String × Logon) :=
  if session.managerSessionId = "" then none
  else some (session.managerSessionId, session.logon)

theorem RuntimeSession.logon_of_binding {session : RuntimeSession}
    {managerSessionId : String} {logon : Logon}
    (h : session.binding = some (managerSessionId, logon)) :
    session.logon = logon := by
  unfold binding at h
  split at h <;> cases h
  rfl

/-- What the effects so far say of one user. -/
structure Ledger where
  /-- The user's logons in the inventory that was read last. -/
  present : Option (List Logon)
  /-- The identifier saved last, for logons that stayed since. -/
  known : Logon → Option String
  ended : Finset Logon

def logonsOf (sid : Sid) (users : List (Sid × Logon)) : List Logon :=
  users.filterMap fun user => if user.1 = sid then some user.2 else none

theorem mem_logonsOf {sid : Sid} {users : List (Sid × Logon)}
    {logon : Logon} : logon ∈ logonsOf sid users ↔ (sid, logon) ∈ users := by
  simp [logonsOf, List.mem_filterMap]

def stillThere (users : List (Sid × Logon)) (logons : Finset Logon) :
    Finset Logon :=
  logons.filter fun logon => logon ∈ users.map Prod.snd

namespace Ledger

def start (saved : Option RuntimeSession) : Ledger where
  present := none
  known := fun logon => (saved.bind RuntimeSession.binding).bind fun binding =>
    if binding.2 = logon then some binding.1 else none
  ended := ∅

def Present (ledger : Ledger) (logon : Logon) : Prop :=
  ∀ logons ∈ ledger.present, logon ∈ logons

instance (ledger : Ledger) (logon : Logon) :
    Decidable (ledger.Present logon) :=
  inferInstanceAs (Decidable (∀ logons ∈ ledger.present, logon ∈ logons))

def save (session : RuntimeSession) (ledger : Ledger) : Ledger :=
  if session.managerSessionId ≠ "" ∧ ledger.Present session.logon then
    { ledger with
      known := fun logon =>
        if logon = session.logon then some session.managerSessionId
        else ledger.known logon }
  else ledger

def observe (sid : Sid) (ledger : Ledger) : Effect → Ledger
  | .sampled users =>
      { present := some (logonsOf sid users)
        known := fun logon =>
          if logon ∈ logonsOf sid users then ledger.known logon else none
        ended := stillThere users ledger.ended }
  | .listed sids =>
      if sid ∈ sids then ledger else { ledger with known := fun _ => none }
  | .saved user session => if user = sid then ledger.save session else ledger
  | .ended logon => { ledger with ended := insert logon ledger.ended }
  | _ => ledger

/-- A controller gets the saved identifier, and none after the end. -/
def Allows (sid : Sid) (ledger : Ledger) : Effect → Prop
  | .controller user logon managerSessionId _ =>
      user = sid → (∀ known ∈ ledger.known logon, managerSessionId = known) ∧
        logon ∉ ledger.ended
  | _ => True

instance (sid : Sid) (ledger : Ledger) :
    DecidablePred (ledger.Allows sid) := fun effect => by
  cases effect <;> unfold Allows <;> infer_instance

def Admits (sid : Sid) : Ledger → List Effect → Prop
  | _, [] => True
  | ledger, effect :: trace =>
      ledger.Allows sid effect ∧ (ledger.observe sid effect).Admits sid trace

instance decidableAdmits (sid : Sid) (ledger : Ledger) :
    (trace : List Effect) → Decidable (ledger.Admits sid trace)
  | [] => isTrue trivial
  | effect :: trace =>
      have := decidableAdmits sid (ledger.observe sid effect) trace
      inferInstanceAs (Decidable (_ ∧ _))

def after (sid : Sid) (ledger : Ledger) (trace : List Effect) : Ledger :=
  trace.foldl (observe sid) ledger

variable {sid : Sid} {ledger : Ledger}

theorem admits_append {first second : List Effect} :
    ledger.Admits sid (first ++ second) ↔
      ledger.Admits sid first ∧ (ledger.after sid first).Admits sid second := by
  induction first generalizing ledger with
  | nil => simp [Admits, after]
  | cons effect first ih =>
      rw [List.cons_append, Admits, Admits, ih, and_assoc]
      rfl

theorem save_saved {session : RuntimeSession} {logon : Logon} {id : String}
    (h : (ledger.save session).known logon = some id) :
    ledger.known logon = some id ∨
      session.binding = some (id, logon) ∧ ledger.Present logon := by
  unfold save at h
  split at h
  · rename_i counted
    simp only at h
    split at h
    · rename_i same
      cases h
      subst same
      exact .inr ⟨if_neg counted.1, counted.2⟩
    · exact .inl h
  · exact .inl h

theorem present_of_known {users : List (Sid × Logon)} {logon : Logon}
    {id : String}
    (known : (ledger.observe sid (.sampled users)).known logon = some id) :
    (sid, logon) ∈ users := by
  simp only [observe] at known
  split at known
  · rename_i here
    exact mem_logonsOf.mp here
  · cases known

end Ledger

/-! ## The registry and the ledger -/

/-- What is observed of one user, and what the registry holds of the user. -/
structure View where
  ledger : Ledger
  saved : Option RuntimeSession

namespace View

def record (sid : Sid) (saved : Option RuntimeSession) :
    Effect → Option RuntimeSession
  | .saved user session => if user = sid then some session else saved
  | .removed user => if user = sid then none else saved
  | _ => saved

def observe (sid : Sid) (view : View) (effect : Effect) : View :=
  ⟨view.ledger.observe sid effect, record sid view.saved effect⟩

def after (sid : Sid) (view : View) (trace : List Effect) : View :=
  trace.foldl (observe sid) view

variable {sid : Sid} {view : View} {marks : Finset Logon}
  {binding : Option (String × Logon)} {trace : List Effect}

theorem after_append {first second : List Effect} :
    view.after sid (first ++ second) =
      (view.after sid first).after sid second :=
  List.foldl_append

theorem after_ledger :
    (view.after sid trace).ledger = view.ledger.after sid trace := by
  induction trace generalizing view with
  | nil => rfl
  | cons effect trace ih => exact ih

theorem observe_listed {sids : List Sid} (h : sid ∈ sids) :
    view.observe sid (.listed sids) = view := by
  simp [observe, Ledger.observe, record, h]

/-- What is known of a logon is what the binding and the registry say. -/
structure Explained (marks : Finset Logon)
    (binding : Option (String × Logon)) (view : View) : Prop where
  ended : view.ledger.ended ⊆ marks
  known : ∀ logon id, view.ledger.known logon = some id → logon ∉ marks →
    binding = some (id, logon) ∧
      ∃ session, view.saved = some session ∧
        session.binding = some (id, logon)

theorem Explained.of_none (h : Explained marks none view) :
    Explained marks binding view :=
  ⟨h.ended, fun logon id known unmarked => by
    simpa using (h.known logon id known unmarked).1⟩

def Fits (sid : Sid) (marks : Finset Logon)
    (binding : Option (String × Logon)) (ledger : Ledger) : Effect → Prop
  | .sampled _ | .listed _ | .ended _ => False
  | .controller user logon managerSessionId _ => user = sid →
      logon ∉ marks ∧
        ∀ bound ∈ binding, bound = (managerSessionId, logon)
  | .saved user session => user = sid → session.binding = binding ∨
      binding = none ∧ (session.logon ∈ marks ∨ ¬ ledger.Present session.logon)
  | .removed user => user = sid → binding = none
  | _ => True

theorem Explained.save {session : RuntimeSession}
    (h : Explained marks binding view)
    (fits : Fits sid marks binding view.ledger (.saved sid session)) :
    Explained marks binding ⟨view.ledger.save session, some session⟩ := by
  have ended : (view.ledger.save session).ended = view.ledger.ended := by
    unfold Ledger.save
    split <;> rfl
  refine ⟨ended ▸ h.ended, fun logon id known unmarked => ?_⟩
  rcases Ledger.save_saved known with before | ⟨named, present⟩
  · have held := (h.known logon id before unmarked).1
    rcases fits rfl with same | ⟨none, -⟩
    · exact ⟨held, session, rfl, same.trans held⟩
    · cases none.symm.trans held
  · rcases fits rfl with same | ⟨-, gone⟩
    · exact ⟨same.symm.trans named, session, rfl, named⟩
    · rw [RuntimeSession.logon_of_binding named] at gone
      exact absurd gone (not_or.mpr ⟨unmarked, not_not.mpr present⟩)

theorem Explained.observe {effect : Effect}
    (h : Explained marks binding view)
    (fits : Fits sid marks binding view.ledger effect) :
    view.ledger.Allows sid effect ∧
      Explained marks binding (view.observe sid effect) := by
  cases effect with
  | sampled | listed | ended => exact fits.elim
  | signaled | waited | detached => exact ⟨trivial, h⟩
  | controller user logon managerSessionId process =>
      refine ⟨fun same => ?_, h⟩
      obtain ⟨unmarked, bound⟩ := fits same
      refine ⟨fun known held => ?_, fun ended => unmarked (h.ended ended)⟩
      have named := (h.known logon known held unmarked).1
      cases bound _ named
      rfl
  | saved user session =>
      refine ⟨trivial, ?_⟩
      by_cases same : user = sid
      · subst same
        simpa [View.observe, Ledger.observe, record] using h.save fits
      · simpa [View.observe, Ledger.observe, record, same] using h
  | removed user =>
      refine ⟨trivial, ?_⟩
      by_cases same : user = sid
      · have none := fits same
        refine ⟨h.ended, fun logon id known unmarked => ?_⟩
        cases none.symm.trans (h.known logon id known unmarked).1
      · simpa [View.observe, Ledger.observe, record, same] using h

theorem present_observe {effect : Effect}
    (fits : Fits sid marks binding view.ledger effect) :
    (view.observe sid effect).ledger.present = view.ledger.present := by
  cases effect with
  | sampled | listed | ended => exact fits.elim
  | signaled | waited | detached | controller | removed => rfl
  | saved user session =>
      simp only [View.observe, Ledger.observe, Ledger.save]
      split
      · split <;> rfl
      · rfl

theorem Fits.congr {first second : Ledger} {effect : Effect}
    (same : second.present = first.present)
    (fits : Fits sid marks binding first effect) :
    Fits sid marks binding second effect := by
  cases effect with
  | saved user session => simpa [Fits, Ledger.Present, same] using fits
  | _ => exact fits

theorem Explained.block (h : Explained marks binding view)
    (fits : ∀ effect ∈ trace, Fits sid marks binding view.ledger effect) :
    view.ledger.Admits sid trace ∧
      Explained marks binding (view.after sid trace) ∧
      (view.after sid trace).ledger.present = view.ledger.present := by
  induction trace generalizing view with
  | nil => exact ⟨trivial, h, rfl⟩
  | cons effect trace ih =>
      rw [List.forall_mem_cons] at fits
      obtain ⟨allowed, next⟩ := h.observe fits.1
      have same := present_observe fits.1
      obtain ⟨admitted, last, stays⟩ := ih next fun later hlater =>
        (fits.2 later hlater).congr same
      exact ⟨⟨allowed, admitted⟩, last, stays.trans same⟩

end View

end Susm.Host
