import Susm.Controller.LogFiles
import Susm.Foundation.Transition

/-!
# Steps of a log query

What each step of the query does, and what holds of the query in every state as
long as the files that were listed are there when they are read.
-/

namespace Susm.Controller

open Susm.Foundation
open Susm.Protocol
open Susm.Supervisor

/-! ## Steps of the query -/

namespace LogTask

/-- How many loops there are inside. -/
def depth : LogTask → Nat
  | .execution _ => 3
  | .attempt _ _ => 2
  | .file _ _ _ => 1
  | .record _ => 0

end LogTask

def QueryPoint.tasks : QueryPoint → List LogTask
  | .reading tasks => tasks
  | _ => []

/-- The round of the loop that is continued with the next one. -/
def LogState.Skips (request : ReadLogsRequest) (state : LogState) :
    LogTask → Prop
  | .execution executionId => request.skipsExecution executionId = true
  | .attempt _ name => request.skipsAttempt (attemptNumber name) = true
  | .file _ _ name => isJournalName name = false
  | .record record =>
      request.skipsStream record.stream = true ∨ record.identity ∈ state.seen

/-- The steps of the query by what they do. -/
inductive Reads (tree : LogTree) (request : ReadLogsRequest)
    (state : LogState) : LogState → Prop where
  | empty (hpoint : state.point = .pass) (hnone : state.stages.keys = []) :
      Reads tree request state (state.endPass request)
  | root {names : List String} (hpoint : state.point = .pass)
      (hlists : state.Lists tree tree.root names) :
      Reads tree request state
        { state with point := .reading (names.map .execution) }
  | finished (hpoint : state.point = .reading []) :
      Reads tree request state (state.endPass request)
  | skip {task : LogTask} {rest : List LogTask}
      (hpoint : state.point = .reading (task :: rest))
      (hskip : state.Skips request task) :
      Reads tree request state { state with point := .reading rest }
  | execution {executionId : String} {names : List String}
      {rest : List LogTask}
      (hpoint : state.point = .reading (.execution executionId :: rest))
      (hlists : state.Lists tree (tree.root ++ [executionId]) names) :
      Reads tree request state
        { state with
          point := .reading (names.map (.attempt executionId) ++ rest) }
  | attempt {executionId name : String} {names : List String}
      {rest : List LogTask}
      (hpoint : state.point = .reading (.attempt executionId name :: rest))
      (hlists : state.Lists tree (tree.root ++ [executionId, name]) names) :
      Reads tree request state
        { state with
          point := .reading (names.map (.file executionId name) ++ rest) }
  | file {executionId attempt name : String} {rest : List LogTask}
      {content bytes : List UInt8}
      (hpoint : state.point =
        .reading (.file executionId attempt name :: rest))
      (hcontent : state.disk.lookup
        (tree.root ++ [executionId, attempt, name]) = some content)
      (hbytes : fileBytes tree.zstd name content = some bytes) :
      Reads tree request state
        { state with
          point := .reading ((decodeJournal bytes executionId
            (attemptNumber attempt)).map .record ++ rest) }
  | missing {executionId attempt name : String} {rest : List LogTask}
      (hpoint : state.point =
        .reading (.file executionId attempt name :: rest))
      (hcontent : state.disk.lookup
        (tree.root ++ [executionId, attempt, name]) = none) :
      Reads tree request state
        { state with point := .done (.error .notFound) }
  | invalid {executionId attempt name : String} {rest : List LogTask}
      {content : List UInt8}
      (hpoint : state.point =
        .reading (.file executionId attempt name :: rest))
      (hcontent : state.disk.lookup
        (tree.root ++ [executionId, attempt, name]) = some content)
      (hbytes : fileBytes tree.zstd name content = none) :
      Reads tree request state
        { state with point := .done (.error .invalidData) }
  | hungUp {record : ReadLogsResponse} {rest : List LogTask}
      (hpoint : state.point = .reading (.record record :: rest))
      (hclosed : state.closed = true) :
      Reads tree request state
        { state with
          point := .done (.ok ())
          seen := state.seen ++ [record.identity] }
  | send {record : ReadLogsResponse} {rest : List LogTask}
      (hpoint : state.point = .reading (.record record :: rest))
      (hnew : record.identity ∉ state.seen) :
      Reads tree request state
        { state with
          point := .reading rest
          seen := state.seen ++ [record.identity]
          delivered := state.delivered ++ [record] }
  | wake (hpoint : state.point = .asleep) :
      Reads tree request state
        { state with
          point := if state.closed then .done (.ok ()) else .pass }

section Steps

variable {tree : LogTree} {request : ReadLogsRequest} {state next : LogState}
  {task : LogTask} {rest : List LogTask} {names : List String}

theorem reads_of_task (hpoint : state.point = .reading (task :: rest))
    (h : state.readTask tree request names rest task = some next) :
    Reads tree request state next := by
  cases task with
  | execution executionId =>
      rw [LogState.readTask, LogState.readExecution] at h
      split at h
      · rename_i hskip
        cases h
        exact .skip hpoint hskip
      · split at h
        · rename_i hlists
          cases h
          exact .execution hpoint hlists
        · cases h
  | attempt executionId name =>
      rw [LogState.readTask, LogState.readAttempt] at h
      split at h
      · rename_i hskip
        cases h
        exact .skip hpoint hskip
      · split at h
        · rename_i hlists
          cases h
          exact .attempt hpoint hlists
        · cases h
  | file executionId attempt name =>
      rw [LogState.readTask, LogState.readFile, Option.some.injEq] at h
      subst h
      split
      · split
        · rename_i hcontent
          exact .missing hpoint hcontent
        · rename_i hcontent
          split
          · rename_i hbytes
            exact .invalid hpoint hcontent hbytes
          · rename_i hbytes
            exact .file hpoint hcontent hbytes
      · rename_i hname
        exact .skip hpoint (by simpa [LogState.Skips] using hname)
  | record record =>
      rw [LogState.readTask, LogState.readRecord, Option.some.injEq] at h
      subst h
      split
      · rename_i hskip
        exact .skip hpoint (.inl hskip)
      · split
        · rename_i hseen
          exact .skip hpoint (.inr hseen)
        · rename_i hnew
          split
          · rename_i hclosed
            exact .hungUp hpoint hclosed
          · exact .send hpoint hnew

theorem reads_of_step
    (h : logStep tree request state (.read names) = some next) :
    Reads tree request state next := by
  rw [logStep, LogState.read] at h
  split at h
  · rename_i hpoint
    split at h
    · rename_i hnone
      cases h
      exact .empty hpoint hnone
    · split at h
      · rename_i hlists
        cases h
        exact .root hpoint hlists
      · cases h
  · rename_i hpoint
    cases h
    exact .finished hpoint
  · rename_i hpoint
    exact reads_of_task hpoint h
  · rename_i hpoint
    cases h
    exact .wake hpoint
  · cases h

theorem reads_or_quiet {event : LogEvent}
    (h : logStep tree request state event = some next) :
    (∃ names, event = .read names ∧ Reads tree request state next) ∨
      Quiet tree state next := by
  by_cases hread : ∃ names, event = .read names
  · obtain ⟨names, rfl⟩ := hread
    exact .inl ⟨names, rfl, reads_of_step h⟩
  · exact .inr (quiet_of_step (not_exists.mp hread) h)

theorem Reads.unchanged (reads : Reads tree request state next) :
    next.disk = state.disk ∧ next.stages = state.stages ∧
      next.closed = state.closed := by
  cases reads <;> exact ⟨rfl, rfl, rfl⟩

theorem Reads.seen_subset (reads : Reads tree request state next) :
    state.seen ⊆ next.seen := by
  cases reads with
  | hungUp | send => exact List.subset_append_left _ _
  | empty | root | finished | skip | execution | attempt | file | missing
  | invalid | wake => exact List.Subset.refl _

theorem Reads.rounds (reads : Reads tree request state next)
    (hpoint : state.point = .reading (task :: rest)) :
    (∃ result, next.point = .done result ∧
        (result = .ok () → state.closed = true)) ∨
      ∃ inner, next.point = .reading (inner ++ rest) ∧
        ∀ round ∈ inner, round.depth < task.depth := by
  cases reads with
  | empty h | root h | finished h | wake h =>
      rw [hpoint] at h
      cases h
  | missing | invalid => exact .inl ⟨_, rfl, by simp⟩
  | hungUp h hclosed => exact .inl ⟨_, rfl, fun _ => hclosed⟩
  | skip h | send h =>
      rw [hpoint] at h
      cases h
      exact .inr ⟨[], rfl, by simp⟩
  | execution h | attempt h | file h =>
      rw [hpoint] at h
      cases h
      refine .inr ⟨_, rfl, fun round hround => ?_⟩
      obtain ⟨_, -, rfl⟩ := List.mem_map.mp hround
      exact Nat.lt_succ_self _

end Steps

/-! ## Safety -/

/--
The file that is read next is still there under the name that was listed.  If
it is a temporary one, it is decoded to no other records than those written.
-/
def LogState.Undisturbed (tree : LogTree) (state : LogState) :
    LogEvent → Prop
  | .read _ => ∀ executionId attempt name rest,
      state.point = .reading (.file executionId attempt name :: rest) →
      ∃ bytes,
        state.disk.lookup (tree.root ++ [executionId, attempt, name]) =
          some bytes ∧
        (fileExtension name.toList = some "tmp".toList →
          ∀ record ∈ decodeJournal bytes executionId (attemptNumber attempt),
            record ∈ state.records tree)
  | _ => True

/-- What holds in every state. -/
structure Sound (tree : LogTree) (request : ReadLogsRequest)
    (state : LogState) : Prop where
  stored : tree.Stored state
  pending : ∀ record, .record record ∈ state.point.tasks →
    record ∈ state.records tree
  delivered : ∀ record ∈ state.delivered, record ∈ state.records tree
  seen : state.point ≠ .done (.ok ()) →
    state.seen = state.delivered.map ReadLogsResponse.identity
  nodup : (state.delivered.map ReadLogsResponse.identity).Nodup
  healthy : ∀ error, state.point ≠ .done (.error error)
  ended : state.point = .done (.ok ()) →
    state.closed = true ∨ request.follow = false

section Safety

variable {tree : LogTree} {request : ReadLogsRequest} {state next : LogState}
  {segment : Segment} {record : ReadLogsResponse}

theorem mem_keys_of_lookup {stage : Stage}
    (hstage : state.stages.lookup segment = some stage) :
    segment ∈ state.stages.keys := by
  rw [← AList.mem_keys, ← AList.lookup_isSome, hstage, Option.isSome_some]

theorem mem_logRecords {stage : Stage}
    (hstage : state.stages.lookup segment = some stage)
    (hrecord : record ∈ tree.records segment) :
    record ∈ state.records tree :=
  List.mem_flatMap.mpr ⟨segment, mem_keys_of_lookup hstage, hrecord⟩

theorem Quiet.records (quiet : Quiet tree state next)
    (hrecord : record ∈ state.records tree) :
    record ∈ next.records tree := by
  obtain ⟨segment, hkey, hrecord⟩ := List.mem_flatMap.mp hrecord
  rw [← AList.mem_keys, ← AList.lookup_isSome] at hkey
  obtain ⟨stage, hstage⟩ := Option.isSome_iff_exists.mp hkey
  obtain ⟨later, hlater, -⟩ := quiet.grows segment stage hstage
  exact mem_logRecords hlater hrecord

theorem Quiet.sound (quiet : Quiet tree state next)
    (sound : Sound tree request state) : Sound tree request next where
  stored := quiet.stored sound.stored
  pending other hother := by
    rw [quiet.point] at hother
    exact quiet.records (sound.pending other hother)
  delivered other hother := by
    rw [quiet.delivered] at hother
    exact quiet.records (sound.delivered other hother)
  seen := by
    rw [quiet.point, quiet.seen, quiet.delivered]
    exact sound.seen
  nodup := by
    rw [quiet.delivered]
    exact sound.nodup
  healthy := by
    rw [quiet.point]
    exact sound.healthy
  ended hended := by
    rw [quiet.point] at hended
    exact (sound.ended hended).imp_left quiet.closed

theorem LogTree.Stored.file {executionId attempt name : String}
    {content : List UInt8} (stored : tree.Stored state)
    (h : state.disk.lookup (tree.root ++ [executionId, attempt, name]) =
      some content) :
    ∃ segment stage kind, state.stages.lookup segment = some stage ∧
      tree.Holds segment stage kind content ∧
      executionId = segment.executionId ∧
      attempt = attemptName segment.attempt.toNat ∧
      name = tree.fileName segment kind := by
  obtain ⟨segment, stage, kind, hstage, hpath, holds⟩ := stored _ _ h
  rw [LogTree.path, LogTree.directory, List.append_assoc] at hpath
  have hnames := List.append_cancel_left hpath
  simp only [List.cons_append, List.nil_append, List.cons.injEq, and_true]
    at hnames
  exact ⟨segment, stage, kind, hstage, holds, hnames⟩

theorem decoded_records {executionId attempt name : String}
    {content bytes : List UInt8} (stored : tree.Stored state)
    (hcontent : state.disk.lookup
      (tree.root ++ [executionId, attempt, name]) = some content)
    (hbytes : fileBytes tree.zstd name content = some bytes)
    (htemporary : fileExtension name.toList = some "tmp".toList →
      ∀ record ∈ decodeJournal content executionId (attemptNumber attempt),
        record ∈ state.records tree) :
    ∀ record ∈ decodeJournal bytes executionId (attemptNumber attempt),
      record ∈ state.records tree := by
  obtain ⟨segment, stage, kind, hstage, holds, rfl, rfl, rfl⟩ :=
    stored.file hcontent
  by_cases hkind : kind = .temporary
  · subst hkind
    rw [fileBytes_fileName, if_neg (by decide)] at hbytes
    cases hbytes
    exact htemporary (tree.fileExtension_fileName segment .temporary)
  · obtain ⟨size, -, hread⟩ := holds.readable hkind
    rw [hread, Option.some.injEq] at hbytes
    subst hbytes
    obtain ⟨count, hdecoded, -⟩ := decodeJournal_journal tree segment size
    rw [attemptNumber_attemptName segment.attempt.toNat_lt, hdecoded]
    intro record hrecord
    exact mem_logRecords hstage (List.mem_of_mem_take hrecord)

theorem fileBytes_isSome {executionId attempt name : String}
    {content : List UInt8} (stored : tree.Stored state)
    (hcontent : state.disk.lookup
      (tree.root ++ [executionId, attempt, name]) = some content) :
    fileBytes tree.zstd name content ≠ none := by
  obtain ⟨segment, stage, kind, hstage, holds, rfl, rfl, rfl⟩ :=
    stored.file hcontent
  by_cases hkind : kind = .temporary
  · rw [fileBytes_fileName, hkind, if_neg (by decide)]
    simp
  · obtain ⟨size, -, hread⟩ := holds.readable hkind
    simp [hread]

theorem Sound.moves {point : QueryPoint} (sound : Sound tree request state)
    (hpoint : state.point ≠ .done (.ok ()))
    (pending : ∀ record, .record record ∈ point.tasks →
      record ∈ state.records tree)
    (healthy : ∀ error, point ≠ .done (.error error))
    (ended : point = .done (.ok ()) →
      state.closed = true ∨ request.follow = false) :
    Sound tree request { state with point := point } where
  stored := sound.stored
  pending := pending
  delivered := sound.delivered
  seen _ := sound.seen hpoint
  nodup := sound.nodup
  healthy := healthy
  ended := ended

theorem Sound.endPass (sound : Sound tree request state)
    (hpoint : state.point ≠ .done (.ok ())) :
    Sound tree request (state.endPass request) := by
  refine sound.moves hpoint ?_ ?_ ?_
  · split <;> simp [QueryPoint.tasks]
  · split <;> simp
  · intro hended
    cases hfollow : request.follow with
    | true => simp [hfollow] at hended
    | false => exact .inr rfl

theorem Reads.sound (reads : Reads tree request state next)
    (sound : Sound tree request state) {names : List String}
    (undisturbed : state.Undisturbed tree (.read names)) :
    Sound tree request next := by
  have hpending : ∀ {task rest}, state.point = .reading (task :: rest) →
      ∀ record, .record record ∈ rest → record ∈ state.records tree := by
    intro task rest hpoint record hrecord
    refine sound.pending record ?_
    rw [hpoint]
    exact List.mem_cons_of_mem task hrecord
  have hrunning : ∀ {point}, state.point = point → point ≠ .done (.ok ()) →
      state.point ≠ .done (.ok ()) := by
    rintro point rfl hne
    exact hne
  cases reads with
  | empty h => exact sound.endPass (hrunning h (by simp))
  | root h =>
      refine sound.moves (hrunning h (by simp)) ?_ (by simp) (by simp)
      simp [QueryPoint.tasks]
  | finished h => exact sound.endPass (hrunning h (by simp))
  | skip h =>
      exact sound.moves (hrunning h (by simp)) (hpending h) (by simp)
        (by simp)
  | execution h | attempt h =>
      refine sound.moves (hrunning h (by simp)) ?_ (by simp) (by simp)
      intro record hrecord
      refine hpending h record ?_
      simpa [QueryPoint.tasks] using hrecord
  | file h hcontent hbytes =>
      refine sound.moves (hrunning h (by simp)) ?_ (by simp) (by simp)
      intro record hrecord
      rcases List.mem_append.mp hrecord with hread | hrest
      · obtain ⟨content, hlookup, htemporary⟩ := undisturbed _ _ _ _ h
        rw [hcontent, Option.some.injEq] at hlookup
        subst hlookup
        refine decoded_records sound.stored hcontent hbytes htemporary record ?_
        simpa using hread
      · exact hpending h record hrest
  | missing h hcontent =>
      obtain ⟨content, hlookup, -⟩ := undisturbed _ _ _ _ h
      rw [hcontent] at hlookup
      cases hlookup
  | invalid h hcontent hbytes =>
      exact absurd hbytes (fileBytes_isSome sound.stored hcontent)
  | hungUp h hclosed =>
      exact ⟨sound.stored, by simp [QueryPoint.tasks], sound.delivered,
        by simp, sound.nodup, by simp, fun _ => .inl hclosed⟩
  | @send record rest h hnew =>
      have hseen := sound.seen (hrunning h (by simp))
      refine ⟨sound.stored, hpending h, ?_, ?_, ?_, by simp, by simp⟩
      · intro other hother
        rcases List.mem_append.mp hother with hother | hother
        · exact sound.delivered other hother
        · rw [List.mem_singleton.mp hother]
          refine sound.pending record ?_
          rw [h]
          exact List.mem_cons_self
      · intro _
        simp [hseen]
      · rw [hseen] at hnew
        rw [List.map_append, List.map_singleton, ← List.concat_eq_append]
        exact sound.nodup.concat hnew
  | wake h =>
      refine sound.moves (hrunning h (by simp)) ?_ ?_ ?_
      · split <;> simp [QueryPoint.tasks]
      · split <;> simp
      · intro hended
        cases hclosed : state.closed with
        | true => exact .inl rfl
        | false => simp [hclosed] at hended

theorem sound_initial : Sound tree request .initial where
  stored path content h := by simp [LogState.initial] at h
  pending := by simp [LogState.initial, QueryPoint.tasks]
  delivered := by simp [LogState.initial]
  seen := by simp [LogState.initial]
  nodup := by simp [LogState.initial]
  healthy := by simp [LogState.initial]
  ended := by simp [LogState.initial]

theorem Sound.step {event : LogEvent} (sound : Sound tree request state)
    (undisturbed : state.Undisturbed tree event)
    (h : logStep tree request state event = some next) :
    Sound tree request next := by
  rcases reads_or_quiet h with ⟨names, rfl, reads⟩ | quiet
  · exact reads.sound sound undisturbed
  · exact quiet.sound sound

theorem sound_of_runs
    (run : Runs (logStep tree request) (LogState.Undisturbed tree) .initial
      state) : Sound tree request state :=
  run.invariant (fun _ _ _ sound undisturbed h => sound.step undisturbed h)
    sound_initial

theorem eq_of_identity {first second : ReadLogsResponse}
    (hfirst : first ∈ state.records tree)
    (hsecond : second ∈ state.records tree)
    (h : first.identity = second.identity) : first = second := by
  obtain ⟨one, -, hone⟩ := List.mem_flatMap.mp hfirst
  obtain ⟨two, -, htwo⟩ := List.mem_flatMap.mp hsecond
  obtain ⟨chunk, hchunk, rfl⟩ := List.mem_map.mp hone
  obtain ⟨other, hother, rfl⟩ := List.mem_map.mp htwo
  simp only [ReadLogsResponse.identity, logRecord, Prod.mk.injEq] at h
  obtain ⟨hexecution, hattempt, hsequence, -⟩ := h
  have hattempt := UInt32.toNat_inj.mp hattempt
  rw [tree.sequences one two hexecution hattempt chunk hchunk other hother
    hsequence, hexecution, hattempt]

theorem Sound.count_le_one (sound : Sound tree request state)
    (record : ReadLogsResponse) : state.delivered.count record ≤ 1 :=
  List.nodup_iff_count_le_one.mp (List.Nodup.of_map _ sound.nodup) record

theorem Sound.count_eq_one (sound : Sound tree request state)
    (hpoint : state.point ≠ .done (.ok ()))
    (hrecord : record ∈ state.records tree)
    (hseen : record.identity ∈ state.seen) :
    state.delivered.count record = 1 := by
  rw [sound.seen hpoint] at hseen
  obtain ⟨other, hother, hidentity⟩ := List.mem_map.mp hseen
  rw [eq_of_identity (sound.delivered other hother) hrecord hidentity]
    at hother
  exact List.count_eq_one_of_mem (List.Nodup.of_map _ sound.nodup) hother

end Safety

end Susm.Controller
