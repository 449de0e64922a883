import Susm.Controller.ControlRpc
import Susm.Controller.Installation

/-!
# Paging through the workloads

A client follows the cursors of `list_workloads` while workloads are added.
The cursor is the identifier of the last workload on a page, so a page holds
the workloads behind it, whatever the list was before.
-/

namespace Susm.Controller

open Susm.Foundation
open Susm.Domain

/-! ## The list -/

def State.HasWorkload (state : State) (id : String) : Prop :=
  (state.workloads.lookup id).isSome

/-- Every workload has an identifier that was accepted. -/
def State.IdsValid (state : State) : Prop :=
  ∀ id, state.HasWorkload id → ∃ parsed, WorkloadId.parse id = .ok parsed

section List

variable {state : State} {id cursor : String} {size : Nat}

theorem mem_records {record : WorkloadRecord} :
    (id, record) ∈ state.records ↔ state.workloads.lookup id = some record := by
  rw [State.records, List.mem_insertionSort]
  exact Map.mem_toList

theorem records_increasing (state : State) :
    state.records.Pairwise fun first second => first.1 < second.1 := by
  have hsorted := List.pairwise_insertionSort
    (fun first second : String × WorkloadRecord => first.1 ≤ second.1)
    state.workloads.toList
  have hkeys : (state.records.map Prod.fst).Nodup := by
    have hperm := (List.perm_insertionSort
      (fun first second : String × WorkloadRecord => first.1 ≤ second.1)
      state.workloads.toList).map Prod.fst
    refine hperm.nodup_iff.mpr ?_
    simpa [Map.toList, Function.comp_def, List.NodupKeys, List.keys] using
      state.workloads.nodupKeys
  have hdistinct := List.pairwise_map.mp hkeys
  exact (hsorted.and hdistinct).imp fun h => lt_of_le_of_ne h.1 h.2

theorem listWorkloads_increasing (state : State) :
    state.listWorkloads.Pairwise fun first second =>
      first.workloadId < second.workloadId :=
  List.pairwise_map.mpr (records_increasing state)

theorem hasWorkload_iff :
    state.HasWorkload id ↔
      id ∈ state.listWorkloads.map Workload.workloadId := by
  have hids : state.listWorkloads.map Workload.workloadId =
      state.records.map Prod.fst := by
    simp [State.listWorkloads, workloadView, Function.comp_def]
  rw [hids, State.HasWorkload, Option.isSome_iff_exists, List.mem_map]
  constructor
  · rintro ⟨record, hrecord⟩
    exact ⟨(id, record), mem_records.mpr hrecord, rfl⟩
  · rintro ⟨⟨other, record⟩, hmem, rfl⟩
    exact ⟨record, mem_records.mp hmem⟩

def State.above (state : State) (cursor : String) : List Workload :=
  state.listWorkloads.filter fun workload => cursor < workload.workloadId

theorem empty_lt (valid : state.IdsValid) {workload : Workload}
    (hmem : workload ∈ state.listWorkloads) : "" < workload.workloadId := by
  have hhas : state.HasWorkload workload.workloadId :=
    hasWorkload_iff.mpr (List.mem_map_of_mem hmem)
  obtain ⟨parsed, hparsed⟩ := valid _ hhas
  have hne := WorkloadId.ne_empty_of_parse hparsed
  rw [String.lt_iff_toList_lt]
  cases htext : workload.workloadId.toList with
  | nil => exact absurd (String.toList_eq_nil_iff.mp htext) hne
  | cons character text => simp

theorem drop_pageStart (valid : state.IdsValid) (cursor : String) :
    state.listWorkloads.drop (pageStart state.listWorkloads cursor) =
      state.above cursor := by
  unfold pageStart
  split
  · rename_i hempty
    subst hempty
    rw [List.drop_zero, State.above, List.filter_eq_self.mpr]
    intro workload hmem
    simpa using empty_lt valid hmem
  · exact drop_partitionPoint
      ((listWorkloads_increasing state).imp fun h => h.le) cursor

theorem pageStart_le (state : State) (cursor : String) :
    pageStart state.listWorkloads cursor ≤ state.listWorkloads.length := by
  unfold pageStart
  split
  · exact Nat.zero_le _
  · exact partitionPoint_le
      ((listWorkloads_increasing state).imp fun h => h.le) cursor

def pageAbove (state : State) (cursor : String) (size : Nat) :
    ListWorkloadsResponse :=
  let page := (state.above cursor).take size
  { workloads := page
    nextCursor :=
      if size < (state.above cursor).length then
        (page.getLast?.map Workload.workloadId).getD ""
      else "" }

theorem sliceOf_page {workloads : List Workload} {start : Nat}
    (hstart : start ≤ workloads.length) :
    sliceOf workloads start (min (start + size) workloads.length) =
      .ok ((workloads.drop start).take size) := by
  rw [sliceOf, if_pos (by omega)]
  congr 1
  rw [List.take_eq_take_iff, List.length_drop]
  omega

theorem itemBefore_page {workloads : List Workload} {start : Nat}
    (hpos : 0 < size) (hlast : start + size < workloads.length) :
    ∃ workload, itemBefore workloads (start + size) = .ok workload ∧
      ((workloads.drop start).take size).getLast? = some workload := by
  have hindex : start + size - 1 < workloads.length := by omega
  refine ⟨workloads[start + size - 1], ?_, ?_⟩
  · rw [itemBefore, if_neg (by omega), List.getElem?_eq_getElem hindex]
  · have hlength : ((workloads.drop start).take size).length = size := by
      rw [List.length_take, List.length_drop]
      omega
    rw [List.getLast?_eq_getElem?, hlength,
      List.getElem?_take_of_lt (by omega), List.getElem?_drop,
      show start + (size - 1) = start + size - 1 by omega,
      List.getElem?_eq_getElem hindex]

theorem listWorkloads_page (valid : state.IdsValid) (hpos : 0 < size)
    (hsize : size ≤ 1000) (cursor : String) :
    listWorkloads true state ⟨size, cursor⟩ =
      .ok (pageAbove state cursor size) := by
  have hdrop := drop_pageStart valid cursor
  have hstart := pageStart_le state cursor
  simp only [listWorkloads, authenticate, pageSize_of_le hpos hsize, if_true,
    bind, Except.bind, pageAbove, ← hdrop, List.length_drop]
  generalize pageStart state.listWorkloads cursor = start at hstart ⊢
  generalize state.listWorkloads = workloads at hstart ⊢
  rw [sliceOf_page hstart]
  by_cases hmore : start + size < workloads.length
  · obtain ⟨workload, hitem, hlast⟩ := itemBefore_page hpos hmore
    rw [Nat.min_eq_left hmore.le, if_pos hmore, hitem, hlast,
      if_pos (by omega)]
    rfl
  · rw [if_neg (by omega), if_neg (by omega)]
    rfl

theorem above_increasing (state : State) (cursor : String) :
    (state.above cursor).Pairwise fun first second =>
      first.workloadId < second.workloadId :=
  (listWorkloads_increasing state).filter _

theorem mem_above {workload : Workload} :
    workload ∈ state.above cursor ↔
      workload ∈ state.listWorkloads ∧ cursor < workload.workloadId := by
  simp [State.above]

theorem last_of_page (hpos : 0 < size)
    (hmore : size < (state.above cursor).length) :
    ∃ last, (pageAbove state cursor size).nextCursor = last.workloadId ∧
      last ∈ (state.above cursor).take size ∧
      (∀ workload ∈ (state.above cursor).take size,
        workload.workloadId ≤ last.workloadId) ∧
      ∀ workload ∈ (state.above cursor).drop size,
        last.workloadId < workload.workloadId := by
  have hsorted := above_increasing state cursor
  rw [← List.take_append_drop size (state.above cursor)] at hsorted
  obtain ⟨hpage, -, hcross⟩ := List.pairwise_append.mp hsorted
  have hne : (state.above cursor).take size ≠ [] := by
    intro hnil
    have hlength := congrArg List.length hnil
    rw [List.length_take, List.length_nil] at hlength
    omega
  have hlast := List.getLast?_eq_some_getLast hne
  refine ⟨_, ?_, List.getLast_mem hne, ?_, ?_⟩
  · simp only [pageAbove, if_pos hmore, hlast, Option.map_some,
      Option.getD_some]
  · intro workload hmem
    rw [← List.dropLast_append_getLast hne] at hmem hpage
    rcases List.mem_append.mp hmem with hbefore | hmem
    · exact ((List.pairwise_append.mp hpage).2.2 workload hbefore _
        (List.mem_singleton.mpr rfl)).le
    · rw [List.mem_singleton.mp hmem]
  · intro workload hmem
    exact hcross _ (List.getLast_mem hne) workload hmem

theorem above_next (hpos : 0 < size)
    (hmore : size < (state.above cursor).length) :
    state.above (pageAbove state cursor size).nextCursor =
      (state.above cursor).drop size := by
  obtain ⟨last, hnext, hmem, hpage, hrest⟩ := last_of_page hpos hmore
  have hcursor : cursor < last.workloadId :=
    (mem_above.mp (List.mem_of_mem_take hmem)).2
  have hsplit : state.above last.workloadId =
      (state.above cursor).filter fun workload =>
        last.workloadId < workload.workloadId := by
    rw [State.above, State.above, List.filter_filter]
    congr 1
    funext workload
    by_cases h : last.workloadId < workload.workloadId
    · simp [h, hcursor.trans h]
    · simp [h]
  rw [hnext, hsplit]
  conv_lhs => rw [← List.take_append_drop size (state.above cursor)]
  rw [List.filter_append, List.filter_eq_nil_iff.mpr, List.nil_append,
    List.filter_eq_self.mpr]
  · intro workload hworkload
    exact decide_eq_true (hrest workload hworkload)
  · intro workload hworkload
    have hle := hpage workload hworkload
    simp only [decide_eq_true_eq, not_lt, hle]

end List

/-! ## Following the cursors -/

/-- What the client has got, and the next cursor unless there is none. -/
structure WorkloadWalk where
  returned : List Workload
  cursor : Option String

def walkWorkloads (states : Nat → State) (size : Nat) : Nat → Rpc WorkloadWalk
  | 0 => .ok ⟨[], some ""⟩
  | requests + 1 => do
      let walk ← walkWorkloads states size requests
      match walk.cursor with
      | none => return walk
      | some cursor =>
          let response ← listWorkloads true (states requests) ⟨size, cursor⟩
          return {
            returned := walk.returned ++ response.workloads
            cursor :=
              if response.nextCursor = "" then none
              else some response.nextCursor }

/-- Between two requests workloads are only added. -/
structure Growing (states : Nat → State) : Prop where
  valid : ∀ request, (states request).IdsValid
  grows : ∀ request id, (states request).HasWorkload id →
    (states (request + 1)).HasWorkload id

namespace Growing

variable {states : Nat → State} {size request : Nat}
  (growing : Growing states)
include growing

theorem stays {id : String} (h : (states 0).HasWorkload id)
    (request : Nat) : (states request).HasWorkload id := by
  induction request with
  | zero => exact h
  | succ request ih => exact growing.grows request id ih

theorem next_ne_empty {cursor : String} (hpos : 0 < size)
    (hmore : size < ((states request).above cursor).length) :
    (pageAbove (states request) cursor size).nextCursor ≠ "" := by
  obtain ⟨last, hnext, hmem, -, -⟩ := last_of_page hpos hmore
  have hlist := (mem_above.mp (List.mem_of_mem_take hmem)).1
  rw [hnext]
  exact (empty_lt (growing.valid request) hlist).ne'

theorem step {walk : WorkloadWalk} {cursor : String} (hpos : 0 < size)
    (hsize : size ≤ 1000)
    (hwalk : walkWorkloads states size request = .ok walk)
    (hcursor : walk.cursor = some cursor) :
    walkWorkloads states size (request + 1) = .ok
      { returned :=
          walk.returned ++ ((states request).above cursor).take size
        cursor :=
          if size < ((states request).above cursor).length then
            some (pageAbove (states request) cursor size).nextCursor
          else none } := by
  have hpage := listWorkloads_page (growing.valid request) hpos hsize cursor
  simp only [walkWorkloads, hwalk, hcursor, hpage, bind, Except.bind]
  by_cases hmore : size < ((states request).above cursor).length
  · have hne := growing.next_ne_empty hpos hmore
    rw [if_neg hne, if_pos hmore]
    rfl
  · rw [if_neg hmore, if_pos]
    · rfl
    · exact if_neg hmore

end Growing

/-- What holds of the walk after so many requests. -/
structure WalkHolds (states : Nat → State) (walk : WorkloadWalk) : Prop where
  increasing : (walk.returned.map Workload.workloadId).Pairwise (· < ·)
  bounded : ∀ cursor ∈ walk.cursor, ∀ workload ∈ walk.returned,
    workload.workloadId ≤ cursor
  covered : ∀ id, (states 0).HasWorkload id →
    (∀ cursor ∈ walk.cursor, id ≤ cursor) →
    id ∈ walk.returned.map Workload.workloadId

namespace WalkHolds

variable {states : Nat → State} {walk : WorkloadWalk} {size request : Nat}
  {cursor : String}

theorem first (growing : Growing states) :
    WalkHolds states ⟨[], some ""⟩ where
  increasing := List.Pairwise.nil
  bounded := by simp
  covered id hpresent hle := by
    obtain ⟨parsed, hparsed⟩ := growing.valid 0 id hpresent
    have hlist := hasWorkload_iff.mp hpresent
    obtain ⟨workload, hmem, rfl⟩ := List.mem_map.mp hlist
    exact absurd (hle "" rfl) (empty_lt (growing.valid 0) hmem).not_ge

section Page

variable (holds : WalkHolds states walk) (hcursor : walk.cursor = some cursor)
include holds hcursor

theorem increasing_page :
    ((walk.returned ++ ((states request).above cursor).take size).map
      Workload.workloadId).Pairwise (· < ·) := by
  rw [List.map_append]
  refine List.pairwise_append.mpr ⟨holds.increasing, ?_, ?_⟩
  · exact List.pairwise_map.mpr
      ((above_increasing (states request) cursor).take)
  · intro first hfirst second hsecond
    obtain ⟨before, hbefore, rfl⟩ := List.mem_map.mp hfirst
    obtain ⟨behind, hbehind, rfl⟩ := List.mem_map.mp hsecond
    have hle := holds.bounded cursor hcursor before hbefore
    exact hle.trans_lt (mem_above.mp (List.mem_of_mem_take hbehind)).2

theorem bounded_page (hpos : 0 < size)
    (hmore : size < ((states request).above cursor).length)
    {workload : Workload}
    (hmem : workload ∈
      walk.returned ++ ((states request).above cursor).take size) :
    workload.workloadId ≤
      (pageAbove (states request) cursor size).nextCursor := by
  obtain ⟨last, hnext, hlast, hpage, -⟩ := last_of_page hpos hmore
  rw [hnext]
  rcases List.mem_append.mp hmem with hbefore | hmem
  · have hle := holds.bounded cursor hcursor workload hbefore
    exact hle.trans (mem_above.mp (List.mem_of_mem_take hlast)).2.le
  · exact hpage workload hmem

theorem covered_page (growing : Growing states) {id : String}
    (hpresent : (states 0).HasWorkload id)
    (hpage : ∀ workload ∈ ((states request).above cursor).drop size,
      workload.workloadId ≠ id) :
    id ∈ (walk.returned ++ ((states request).above cursor).take size).map
      Workload.workloadId := by
  rw [List.map_append, List.mem_append]
  by_cases hle : id ≤ cursor
  · left
    exact holds.covered id hpresent fun other hother => by
      rw [hcursor] at hother
      obtain rfl := Option.some.inj hother
      exact hle
  · right
    have hlist := hasWorkload_iff.mp (growing.stays hpresent request)
    obtain ⟨workload, hmem, rfl⟩ := List.mem_map.mp hlist
    have habove := mem_above.mpr ⟨hmem, not_le.mp hle⟩
    rw [← List.take_append_drop size ((states request).above cursor)]
      at habove
    rcases List.mem_append.mp habove with htake | hdrop
    · exact List.mem_map_of_mem htake
    · exact absurd rfl (hpage workload hdrop)

end Page

theorem next (holds : WalkHolds states walk)
    (hcursor : walk.cursor = some cursor) (growing : Growing states)
    (hpos : 0 < size) :
    WalkHolds states
      { returned :=
          walk.returned ++ ((states request).above cursor).take size
        cursor :=
          if size < ((states request).above cursor).length then
            some (pageAbove (states request) cursor size).nextCursor
          else none } where
  increasing := holds.increasing_page hcursor
  bounded other hother workload hmem := by
    split at hother
    · rename_i hmore
      obtain rfl := Option.some.inj hother
      exact holds.bounded_page hcursor hpos hmore hmem
    · simp at hother
  covered id hpresent hle := by
    refine holds.covered_page hcursor growing hpresent ?_
    intro workload hmem heq
    have hmore : size < ((states request).above cursor).length := by
      have := List.length_pos_of_mem hmem
      rw [List.length_drop] at this
      omega
    obtain ⟨last, hnext, -, -, hrest⟩ := last_of_page hpos hmore
    rw [if_pos hmore, hnext] at hle
    have hbehind := hrest workload hmem
    rw [heq] at hbehind
    exact absurd (hle _ rfl) hbehind.not_ge

end WalkHolds

theorem walkWorkloads_holds {states : Nat → State} {size : Nat}
    (growing : Growing states) (hpos : 0 < size) (hsize : size ≤ 1000)
    (requests : Nat) :
    ∃ walk, walkWorkloads states size requests = .ok walk ∧
      WalkHolds states walk := by
  induction requests with
  | zero => exact ⟨_, rfl, WalkHolds.first growing⟩
  | succ requests ih =>
    obtain ⟨walk, hwalk, holds⟩ := ih
    cases hcursor : walk.cursor with
    | none =>
      refine ⟨walk, ?_, holds⟩
      simp only [walkWorkloads, hwalk, hcursor, bind, Except.bind]
      rfl
    | some cursor =>
      exact ⟨_, growing.step hpos hsize hwalk hcursor,
        holds.next hcursor growing hpos⟩

/-! ## The end -/

theorem above_ids_eq {first second : State}
    (same : ∀ id, first.HasWorkload id ↔ second.HasWorkload id)
    (cursor : String) :
    (first.above cursor).map Workload.workloadId =
      (second.above cursor).map Workload.workloadId := by
  have hmem : ∀ (state : State) (id : String),
      id ∈ (state.above cursor).map Workload.workloadId ↔
        state.HasWorkload id ∧ cursor < id := by
    intro state id
    simp only [hasWorkload_iff, List.mem_map, mem_above]
    constructor
    · rintro ⟨workload, ⟨hlist, hlt⟩, rfl⟩
      exact ⟨⟨workload, hlist, rfl⟩, hlt⟩
    · rintro ⟨⟨workload, hlist, rfl⟩, hlt⟩
      exact ⟨workload, ⟨hlist, hlt⟩, rfl⟩
  refine List.Pairwise.eq_of_mem_iff (r := (· < ·)) ?_ ?_ fun id => ?_
  · exact List.pairwise_map.mpr (above_increasing first cursor)
  · exact List.pairwise_map.mpr (above_increasing second cursor)
  · rw [hmem first, hmem second, same]

/-- From some request on no workload is inserted. -/
def Settled (states : Nat → State) (since : Nat) : Prop :=
  ∀ request, since ≤ request → ∀ id,
    (states (request + 1)).HasWorkload id → (states request).HasWorkload id

section Ends

variable {states : Nat → State} {size since : Nat}
  (growing : Growing states) (hpos : 0 < size) (hsize : size ≤ 1000)
  (settled : Settled states since)
include growing hpos hsize settled

theorem walkWorkloads_ends_within (left : Nat) {request : Nat}
    {walk : WorkloadWalk} (hsince : since ≤ request)
    (hwalk : walkWorkloads states size request = .ok walk)
    (hleft : ∀ cursor ∈ walk.cursor,
      ((states request).above cursor).length ≤ left) :
    ∃ requests last, walkWorkloads states size requests = .ok last ∧
      last.cursor = none := by
  induction left generalizing request walk with
  | zero =>
    cases hcursor : walk.cursor with
    | none => exact ⟨request, walk, hwalk, hcursor⟩
    | some cursor =>
      have hstep := growing.step hpos hsize hwalk hcursor
      have hnone := hleft cursor hcursor
      exact ⟨_, _, hstep, if_neg (by omega)⟩
  | succ left ih =>
    cases hcursor : walk.cursor with
    | none => exact ⟨request, walk, hwalk, hcursor⟩
    | some cursor =>
      have hstep := growing.step hpos hsize hwalk hcursor
      have hlength := hleft cursor hcursor
      by_cases hmore : size < ((states request).above cursor).length
      · refine ih (Nat.le_succ_of_le hsince) hstep ?_
        intro next hnext
        rw [if_pos hmore] at hnext
        obtain rfl := Option.some.inj hnext
        have hsame := above_ids_eq
          (fun id => ⟨settled request hsince id, growing.grows request id⟩)
          (pageAbove (states request) cursor size).nextCursor
        have hcount := congrArg List.length hsame
        rw [List.length_map, List.length_map, above_next hpos hmore,
          List.length_drop] at hcount
        exact (show ((states (request + 1)).above _).length ≤ left by omega)
      · exact ⟨_, _, hstep, if_neg hmore⟩

theorem walkWorkloads_ends :
    ∃ requests walk, walkWorkloads states size requests = .ok walk ∧
      walk.cursor = none := by
  obtain ⟨walk, hwalk, -⟩ := walkWorkloads_holds growing hpos hsize since
  cases hcursor : walk.cursor with
  | none => exact ⟨since, walk, hwalk, hcursor⟩
  | some cursor =>
    refine walkWorkloads_ends_within growing hpos hsize settled
      ((states since).above cursor).length le_rfl hwalk ?_
    intro other hother
    rw [hcursor] at hother
    obtain rfl := Option.some.inj hother
    exact le_rfl

end Ends

/--
While workloads are only added, no request of the walk fails or panics and the
identifiers strictly increase.  At the end every workload of the first request
has been returned exactly once, and once nothing is added the end is reached.
-/
theorem workloadPages_complete {states : Nat → State} {size : Nat}
    (growing : Growing states) (hpos : 0 < size) (hsize : size ≤ 1000) :
    (∀ requests, ∃ walk, walkWorkloads states size requests = .ok walk ∧
      (walk.returned.map Workload.workloadId).Pairwise (· < ·) ∧
      (walk.cursor = none → ∀ id, (states 0).HasWorkload id →
        (walk.returned.map Workload.workloadId).count id = 1)) ∧
    ∀ since, Settled states since →
      ∃ requests walk, walkWorkloads states size requests = .ok walk ∧
        walk.cursor = none := by
  constructor
  · intro requests
    obtain ⟨walk, hwalk, holds⟩ :=
      walkWorkloads_holds growing hpos hsize requests
    refine ⟨walk, hwalk, holds.increasing, ?_⟩
    intro hend id hpresent
    refine List.count_eq_one_of_mem ?_ ?_
    · exact holds.increasing.imp fun h => h.ne
    · refine holds.covered id hpresent fun cursor hcursor => ?_
      rw [hend] at hcursor
      exact absurd hcursor (Option.not_mem_none cursor)
  · intro since settled
    exact walkWorkloads_ends growing hpos hsize settled

/-! ## A workload that is added between two requests -/

def workloadsOf (ids : List String) : State where
  workloads := ids.foldr (fun id workloads =>
    AList.insert id toolRecord workloads) ∅
  active := ∅
  revision := 1
  sessionEnding := false
  cancelled := []
  receivers := []

theorem hasWorkload_workloadsOf {ids : List String} {id : String} :
    (workloadsOf ids).HasWorkload id ↔ id ∈ ids := by
  rw [State.HasWorkload, AList.lookup_isSome, workloadsOf]
  induction ids with
  | nil => simp
  | cons first ids ih => simp [ih]

/-- `cron` is added behind the first page. -/
def oneAdded (request : Nat) : State :=
  if request = 0 then workloadsOf ["tool", "web"]
  else workloadsOf ["cron", "tool", "web"]

theorem oneAdded_growing : Growing oneAdded where
  valid request id hpresent := by
    have hmem : id ∈ ["cron", "tool", "web"] := by
      unfold oneAdded at hpresent
      split at hpresent <;> rw [hasWorkload_workloadsOf] at hpresent
      · exact List.mem_cons_of_mem _ hpresent
      · exact hpresent
    simp only [List.mem_cons, List.not_mem_nil, or_false] at hmem
    rcases hmem with rfl | rfl | rfl
    · exact ⟨⟨"cron"⟩, by decide⟩
    · exact ⟨⟨"tool"⟩, by decide⟩
    · exact ⟨⟨"web"⟩, by decide⟩
  grows request id hpresent := by
    unfold oneAdded at hpresent
    rw [oneAdded, if_neg (Nat.succ_ne_zero request), hasWorkload_workloadsOf]
    split at hpresent <;> rw [hasWorkload_workloadsOf] at hpresent
    · exact List.mem_cons_of_mem _ hpresent
    · exact hpresent

/-- One workload a page. -/
theorem workloadPages_complete_added :
    ∃ requests walk, walkWorkloads oneAdded 1 requests = .ok walk ∧
      (walk.returned.map Workload.workloadId).count "web" = 1 := by
  obtain ⟨hpages, hends⟩ :=
    workloadPages_complete oneAdded_growing Nat.one_pos (by decide)
  obtain ⟨requests, last, hlast, hnone⟩ := hends 1 fun request hsince id => by
    have hpos : request ≠ 0 := by omega
    simp [oneAdded, hpos]
  obtain ⟨walk, hwalk, -, hcount⟩ := hpages requests
  obtain rfl := Except.ok.inj (hwalk.symm.trans hlast)
  refine ⟨requests, walk, hwalk, hcount hnone "web" ?_⟩
  exact hasWorkload_workloadsOf.mpr (by decide)

end Susm.Controller
