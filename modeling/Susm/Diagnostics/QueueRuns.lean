import Susm.Diagnostics.Queue

/-!
# Accounts of the queue

However the threads interleave, the bytes that are charged are those of the
messages on their way, every message has exactly one fate, and every refusal is
counted once.
-/

namespace Susm.Diagnostics

open Susm.Foundation

/-! ## Charges -/

def Submission.reserved (submission : Submission) : Nat :=
  match submission.phase with
  | .sending | .refunding => submission.bytes.length
  | _ => 0

/-- A reservation that is tried fits when nothing else is reserved. -/
def Submission.Fits (submission : Submission) : Prop :=
  ∀ queued, submission.phase = .exchanging queued →
    queued + submission.bytes.length ≤ queueBytes

def Submission.isRefused (submission : Submission) : Nat :=
  if submission.phase = .refused then 1 else 0

def Submission.isAccepted (submission : Submission) : Bool :=
  submission.phase = .accepted

@[simp] def WriterPhase.hand : WriterPhase → List Bytes
  | .releasing bytes _ | .reporting bytes | .writingDropped _ bytes
  | .writing bytes _ => [bytes]
  | _ => []

@[simp] def WriterPhase.unreleased : WriterPhase → Nat
  | .releasing bytes _ => bytes.length
  | _ => 0

@[simp] def WriterPhase.count : WriterPhase → Nat
  | .writingDropped count _ | .writingFinal count => count
  | _ => 0

namespace Submission.Step

variable {queue next : Queue} {submission after : Submission}

theorem balance (step : submission.Step queue next after)
    (charged : submission.reserved ≤ queue.queuedBytes) :
    next.queuedBytes + submission.reserved + tally List.length queue.channel =
      queue.queuedBytes + after.reserved + tally List.length next.channel := by
  cases step with
  | refunds phase =>
      have hreserved : submission.reserved = submission.bytes.length := by
        simp [reserved, phase]
      have hafter : (submission.enter .counting).reserved = 0 := rfl
      rw [hreserved] at charged ⊢
      simp only [wrappingSub_of_le charged, hafter]
      omega
  | refuses phase =>
      rcases phase with phase | phase | ⟨queued, phase⟩ <;>
        simp [reserved, enter, phase]
  | retries phase =>
      rcases phase with phase | ⟨queued, phase⟩ <;>
        simp [reserved, enter, phase]
  | reserves phase same =>
      simp [reserved, enter, phase, same]
  | sends phase | ignores phase | loads phase | fails phase | counts phase =>
      simp [reserved, enter, phase]
      try omega

theorem budget (step : submission.Step queue next after)
    (fits : submission.Fits) (charged : submission.reserved ≤ queue.queuedBytes)
    (held : queue.queuedBytes ≤ queueBytes) :
    next.queuedBytes ≤ queueBytes ∧ after.Fits := by
  cases step with
  | reserves phase same => exact ⟨fits _ phase, nofun⟩
  | retries phase room =>
      refine ⟨held, fun queued hqueued => ?_⟩
      cases hqueued
      exact room
  | refunds phase =>
      have hreserved : submission.reserved = submission.bytes.length := by
        simp [reserved, phase]
      rw [hreserved] at charged
      refine ⟨?_, nofun⟩
      simp only [wrappingSub_of_le charged]
      exact (Nat.sub_le _ _).trans held
  | ignores | loads | refuses | sends | fails | counts => exact ⟨held, nofun⟩

theorem room (step : submission.Step queue next after)
    (held : queue.channel.length ≤ queueMessages) :
    next.channel.length ≤ queueMessages := by
  cases step with
  | sends phase connected room =>
      rw [List.length_append, List.length_singleton]
      exact room
  | _ => exact held

theorem channel_eq (step : submission.Step queue next after) :
    next.channel = queue.channel ++ Pipeline.acceptedBy after := by
  cases step with
  | sends => rfl
  | _ => exact (List.append_nil _).symm

theorem connected_eq (step : submission.Step queue next after) :
    next.connected = queue.connected := by
  cases step <;> rfl

theorem shutdown_eq (step : submission.Step queue next after) :
    next.shutdown = queue.shutdown := by
  cases step <;> rfl

theorem connected_of_accepted (step : submission.Step queue next after)
    (accepted : Pipeline.acceptedBy after ≠ []) : queue.connected = true := by
  cases step with
  | sends phase connected => exact connected
  | _ => exact absurd rfl accepted

theorem counted (step : submission.Step queue next after) :
    submission.isRefused = 0 ∧ submission.isAccepted = false ∧
      next.dropped ≡ queue.dropped + after.isRefused [MOD 2 ^ 64] := by
  cases step with
  | counts phase =>
      refine ⟨by simp [isRefused, phase], by simp [isAccepted, phase], ?_⟩
      exact wrappingAdd_modEq _ _ _
  | refuses phase =>
      rcases phase with phase | phase | ⟨queued, phase⟩ <;>
        exact ⟨by simp [isRefused, phase], by simp [isAccepted, phase], rfl⟩
  | retries phase =>
      rcases phase with phase | ⟨queued, phase⟩ <;>
        exact ⟨by simp [isRefused, phase], by simp [isAccepted, phase], rfl⟩
  | reserves phase | sends phase | ignores phase | loads phase | fails phase
  | refunds phase =>
      exact ⟨by simp [isRefused, phase], by simp [isAccepted, phase], rfl⟩

end Submission.Step

/-! ## The writer -/

/-- What a step of the writer moves between the places of a message. -/
structure WriterMoves (state next : Pipeline) : Prop where
  submissions : next.submissions = state.submissions
  accepted : next.accepted = state.accepted
  order : next.handled.filterMap Handled.bytes ++ next.writer.hand ++
      next.queue.channel ++ next.abandoned =
    state.handled.filterMap Handled.bytes ++ state.writer.hand ++
      state.queue.channel
  charge : next.queue.queuedBytes + state.writer.unreleased +
      tally List.length state.queue.channel =
    state.queue.queuedBytes + next.writer.unreleased +
      tally List.length next.queue.channel + tally List.length next.abandoned
  held : next.queue.queuedBytes ≤ state.queue.queuedBytes
  room : next.queue.channel.length ≤ state.queue.channel.length
  counts : next.queue.dropped + next.writer.count +
      tally Handled.count next.handled =
    state.queue.dropped + state.writer.count +
      tally Handled.count state.handled
  open_or_left : (next.queue.connected = state.queue.connected ∧
      next.abandoned = []) ∨
    (next.queue.connected = false ∧ next.queue.channel = [] ∧
      ∃ drained, next.writer = .ended drained)

namespace Pipeline

variable {setup : Setup} {access : Access} {state next : Pipeline}

theorem WriterStep.moves (step : WriterStep setup access state next)
    (nothing : state.abandoned = [])
    (charged : state.writer.unreleased ≤ state.queue.queuedBytes) :
    WriterMoves state next := by
  cases step with
  | receives phase front =>
      refine ⟨rfl, rfl, ?_, ?_, le_rfl, ?_, ?_, .inl ⟨rfl, nothing⟩⟩ <;>
        simp [phase, front, nothing]
      omega
  | ticks phase | drained phase =>
      refine ⟨rfl, rfl, ?_, ?_, le_rfl, le_rfl, ?_, .inl ⟨rfl, nothing⟩⟩ <;>
        simp [phase, nothing]
  | tickFails phase | finishes phase =>
      refine ⟨rfl, rfl, ?_, ?_, le_rfl, Nat.zero_le _, ?_, .inr ⟨rfl, rfl, _, rfl⟩⟩ <;>
        simp [phase]
  | @releases bytes draining phase =>
      have hcharged : bytes.length ≤ state.queue.queuedBytes := by
        simpa [phase] using charged
      rw [wrappingSub_of_le hcharged]
      refine ⟨rfl, rfl, ?_, ?_, ?_, le_rfl, ?_, .inl ⟨rfl, nothing⟩⟩ <;>
        cases draining <;> simp [phase, nothing, hcharged]
  | reports phase | finalReports phase =>
      refine ⟨rfl, rfl, ?_, ?_, le_rfl, le_rfl, ?_, .inl ⟨rfl, nothing⟩⟩ <;>
        dsimp only <;> split <;> simp [*]
  | writesDropped phase done | writesFinal phase done =>
      refine ⟨rfl, rfl, ?_, ?_, le_rfl, le_rfl, ?_, .inl ⟨rfl, nothing⟩⟩ <;>
        simp [phase, nothing]
      omega
  | losesDropped phase =>
      refine ⟨rfl, rfl, ?_, ?_, le_rfl, Nat.zero_le _, ?_, .inr ⟨rfl, rfl, _, rfl⟩⟩ <;>
        simp [phase]
      · rfl
      · omega
  | losesFinal phase =>
      refine ⟨rfl, rfl, ?_, ?_, le_rfl, Nat.zero_le _, ?_, .inr ⟨rfl, rfl, _, rfl⟩⟩ <;>
        simp [phase]
      omega
  | @writes bytes draining written disk phase done goesOn =>
      refine ⟨rfl, rfl, ?_, ?_, le_rfl, le_rfl, ?_, .inl ⟨rfl, nothing⟩⟩ <;>
        cases draining <;> simp [phase, nothing]
  | loses phase failed notDone =>
      refine ⟨rfl, rfl, ?_, ?_, le_rfl, Nat.zero_le _, ?_, .inr ⟨rfl, rfl, _, rfl⟩⟩ <;>
        simp [phase]
  | checks phase =>
      refine ⟨rfl, rfl, ?_, ?_, le_rfl, le_rfl, ?_, .inl ⟨rfl, nothing⟩⟩ <;>
        dsimp only [enter] <;> split <;> simp [phase, nothing]
  | drains phase front =>
      refine ⟨rfl, rfl, ?_, ?_, le_rfl, ?_, ?_, .inl ⟨rfl, nothing⟩⟩ <;>
        simp [phase, front, nothing]
      omega

/-! ## Every run -/

structure Accounted (state : Pipeline) : Prop where
  /-- Every charged byte is on its way, or was left on the channel. -/
  charge : state.queue.queuedBytes =
    tally Submission.reserved state.submissions +
      tally List.length state.queue.channel + state.writer.unreleased +
      tally List.length state.abandoned
  budget : state.queue.queuedBytes ≤ queueBytes
  room : state.queue.channel.length ≤ queueMessages
  fits : ∀ submission ∈ state.submissions, submission.Fits
  /-- Messages are handled in the order in which they were accepted. -/
  order : state.accepted =
    state.handled.filterMap Handled.bytes ++ state.writer.hand ++
      state.queue.channel ++ state.abandoned
  accepted : state.accepted.Perm (state.submissions.flatMap acceptedBy)
  counts : tally Submission.isRefused state.submissions ≡
    state.queue.dropped + state.writer.count +
      tally Handled.count state.handled [MOD 2 ^ 64]
  open_or_left : (state.queue.connected = true ∧ state.abandoned = []) ∨
    (state.queue.connected = false ∧ state.queue.channel = [] ∧
      ∃ drained, state.writer = .ended drained)

theorem accounted_initial : initial.Accounted where
  charge := rfl
  budget := Nat.zero_le _
  room := Nat.zero_le _
  fits := nofun
  order := rfl
  accepted := .refl _
  counts := rfl
  open_or_left := .inl ⟨rfl, rfl⟩

theorem Accounted.submit (accounted : state.Accounted) (bytes : Bytes) :
    Accounted
      { state with submissions := state.submissions ++ [⟨bytes, .checking⟩] } := by
  obtain ⟨charge, budget, room, fits, order, accepted, counts, gone⟩ := accounted
  refine ⟨?_, budget, room, ?_, order, ?_, ?_, gone⟩
  · simpa [Submission.reserved] using charge
  · intro submission hmem
    rcases List.mem_append.mp hmem with hold | hnew
    · exact fits submission hold
    · rw [List.mem_singleton.mp hnew]
      exact nofun
  · simpa [acceptedBy] using accepted
  · simpa [Submission.isRefused] using counts

theorem Accounted.reserved_le (accounted : state.Accounted)
    {submission : Submission} (mem : submission ∈ state.submissions) :
    submission.reserved ≤ state.queue.queuedBytes := by
  have hle := le_tally Submission.reserved mem
  have hcharge := accounted.charge
  omega

theorem Accounted.advance {index : Nat} {submission after : Submission}
    {queue : Queue} (accounted : state.Accounted)
    (found : state.submissions[index]? = some submission)
    (step : submission.Step state.queue queue after) :
    Accounted
      { state with
        queue := queue
        submissions := state.submissions.set index after
        accepted := state.accepted ++ acceptedBy after } := by
  have mem := List.mem_of_getElem? found
  have charged := accounted.reserved_le mem
  have balance := step.balance charged
  obtain ⟨hbudget, hfits⟩ :=
    step.budget (accounted.fits submission mem) charged accounted.budget
  obtain ⟨notRefused, notAccepted, counted⟩ := step.counted
  have reserved := tally_set Submission.reserved found after
  have refused := tally_set Submission.isRefused found after
  refine ⟨?_, hbudget, step.room accounted.room, ?_, ?_, ?_, ?_, ?_⟩
  · have charge := accounted.charge
    dsimp only
    omega
  · intro other hother
    rcases List.mem_or_eq_of_mem_set hother with hold | rfl
    · exact accounted.fits other hold
    · exact hfits
  · rcases accounted.open_or_left with ⟨-, nothing⟩ | ⟨closed, -, -⟩
    · simp [accounted.order, step.channel_eq, nothing]
    · -- nothing is accepted without a receiver
      have none : acceptedBy after = [] := by
        by_contra hsome
        rw [step.connected_of_accepted hsome] at closed
        cases closed
      simp [accounted.order, step.channel_eq, none]
  · have before : acceptedBy submission = [] := by
      simpa [acceptedBy, Submission.isAccepted] using notAccepted
    have perm := flatMap_set_perm acceptedBy found after
    rw [before, List.append_nil] at perm
    exact (accounted.accepted.append_right _).trans perm.symm
  · have hsum : tally Submission.isRefused (state.submissions.set index after) =
        tally Submission.isRefused state.submissions + after.isRefused := by
      omega
    rw [hsum]
    refine ((accounted.counts.add_right after.isRefused).trans ?_)
    have hcounted := (counted.add_right
      (state.writer.count + tally Handled.count state.handled)).symm
    convert hcounted using 1
    · omega
    · dsimp only
      omega
  · rcases accounted.open_or_left with ⟨opened, nothing⟩ |
      ⟨closed, empty, ended⟩
    · exact .inl ⟨step.connected_eq.trans opened, nothing⟩
    · have none : acceptedBy after = [] := by
        by_contra hsome
        rw [step.connected_of_accepted hsome] at closed
        cases closed
      refine .inr ⟨step.connected_eq.trans closed, ?_, ended⟩
      rw [step.channel_eq, empty, none]
      rfl

/-- The writer steps only as long as it holds the receiver. -/
theorem WriterStep.running (step : WriterStep setup access state next)
    (drained : Bool) : state.writer ≠ .ended drained := by
  intro hended
  cases step <;> simp_all

theorem Accounted.write (accounted : state.Accounted)
    (step : WriterStep setup access state next) : next.Accounted := by
  have hopen : state.queue.connected = true ∧ state.abandoned = [] := by
    rcases accounted.open_or_left with hopen | ⟨-, -, drained, hended⟩
    · exact hopen
    · exact absurd hended (step.running drained)
  have charge := accounted.charge
  have moves := step.moves hopen.2 (by omega)
  rw [hopen.2] at charge
  refine ⟨?_, moves.held.trans accounted.budget,
    moves.room.trans accounted.room, ?_, ?_, ?_, ?_, ?_⟩
  · have moved := moves.charge
    rw [moves.submissions]
    rw [tally_nil] at charge
    omega
  · rw [moves.submissions]
    exact accounted.fits
  · rw [moves.accepted, moves.order, accounted.order, hopen.2, List.append_nil]
  · rw [moves.accepted, moves.submissions]
    exact accounted.accepted
  · rw [moves.submissions, moves.counts]
    exact accounted.counts
  · rcases moves.open_or_left with ⟨same, nothing⟩ | left
    · exact .inl ⟨same.trans hopen.1, nothing⟩
    · exact .inr left

theorem Accounted.step {event : Event} (accounted : state.Accounted)
    (moved : state.step setup event = some next) : next.Accounted := by
  cases event with
  | submit bytes =>
      cases moved
      exact accounted.submit bytes
  | advance index spurious =>
      obtain ⟨submission, found, moved⟩ := Option.bind_eq_some_iff.mp moved
      obtain ⟨⟨queue, after⟩, advanced, rfl⟩ := Option.map_eq_some_iff.mp moved
      exact accounted.advance found (Submission.advance_step advanced)
  | write timeout access => exact accounted.write (stepWriter_step moved)
  | shutdown =>
      cases moved
      exact ⟨accounted.charge, accounted.budget, accounted.room, accounted.fits,
        accounted.order, accounted.accepted, accounted.counts,
        accounted.open_or_left⟩

theorem run_accounted
    (run : Runs (step setup) (fun _ _ => True) initial state) :
    state.Accounted :=
  run.invariant (fun _ _ _ accounted _ moved => accounted.step moved)
    accounted_initial

/-- The bytes that are charged are those between a reservation and its release,
and they never exceed the budget. -/
theorem charged_bytes
    (run : Runs (step setup) (fun _ _ => True) initial state) :
    state.queue.queuedBytes =
        tally Submission.reserved state.submissions +
          tally List.length state.queue.channel + state.writer.unreleased +
          tally List.length state.abandoned ∧
      state.queue.queuedBytes ≤ queueBytes ∧
      state.queue.channel.length ≤ queueMessages :=
  let accounted := run_accounted run
  ⟨accounted.charge, accounted.budget, accounted.room⟩

theorem charged_bytes_busy :
    busyPipeline.queue.queuedBytes =
        tally Submission.reserved busyPipeline.submissions +
          tally List.length busyPipeline.queue.channel +
          busyPipeline.writer.unreleased +
          tally List.length busyPipeline.abandoned ∧
      busyPipeline.queue.queuedBytes ≤ queueBytes ∧
      busyPipeline.queue.channel.length ≤ queueMessages :=
  charged_bytes busyPipeline_reachable

/-- Every accepted message is in one place, in the order in which the messages
were accepted, and every refused one is counted, reported or about to be. -/
theorem every_message_once
    (run : Runs (step setup) (fun _ _ => True) initial state) :
    state.accepted.Perm (state.submissions.flatMap acceptedBy) ∧
      state.accepted = state.handled.filterMap Handled.bytes ++
        state.writer.hand ++ state.queue.channel ++ state.abandoned ∧
      tally Submission.isRefused state.submissions ≡
        state.queue.dropped + state.writer.count +
          tally Handled.count state.handled [MOD 2 ^ 64] :=
  let accounted := run_accounted run
  ⟨accounted.accepted, accounted.order, accounted.counts⟩

theorem every_message_once_busy :
    busyPipeline.accepted.Perm (busyPipeline.submissions.flatMap acceptedBy) ∧
      busyPipeline.accepted = busyPipeline.handled.filterMap Handled.bytes ++
        busyPipeline.writer.hand ++ busyPipeline.queue.channel ++
        busyPipeline.abandoned ∧
      tally Submission.isRefused busyPipeline.submissions ≡
        busyPipeline.queue.dropped + busyPipeline.writer.count +
          tally Handled.count busyPipeline.handled [MOD 2 ^ 64] :=
  every_message_once busyPipeline_reachable

end Pipeline

end Susm.Diagnostics
