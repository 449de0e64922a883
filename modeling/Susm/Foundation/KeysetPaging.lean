import Mathlib.Data.List.Sort
import Mathlib.Order.Lattice

/-!
# Paging by a key that is not unique

Rows are read page by page, greatest key first.  The cursor of the next page is
the key of the last row, and the next page starts strictly below it.  Rows with
equal keys come in any order.  The walk over all pages is complete exactly when
no page ends between two rows with the same key.
-/

namespace Susm.Foundation.KeysetPaging

universe u v

variable {Row : Type u} {Key : Type v}

/-! ## Cuts -/

/-- No page ends between two rows with the same key. -/
def CleanCuts (size : Nat) (keys : List Key) : Prop :=
  ∀ count, 0 < count → count * size < keys.length →
    keys[count * size - 1]? ≠ keys[count * size]?

theorem cleanCuts_iff {size : Nat} (hsize : 0 < size) {keys : List Key} :
    CleanCuts size keys ↔
      (size < keys.length → keys[size - 1]? ≠ keys[size]?) ∧
        CleanCuts size (keys.drop size) := by
  constructor
  · intro clean
    constructor
    · simpa using clean 1 Nat.one_pos
    · intro count hcount hlength
      have hmore := clean (count + 1) (by omega) (by
        rw [List.length_drop] at hlength
        rw [Nat.add_mul]
        omega)
      have hpos : 0 < count * size := Nat.mul_pos hcount hsize
      rw [List.getElem?_drop, List.getElem?_drop]
      rw [Nat.add_mul] at hmore
      rwa [show size + (count * size - 1) = count * size + 1 * size - 1 by
        omega, show size + count * size = count * size + 1 * size by omega]
  · rintro ⟨first, rest⟩ count hcount hlength
    obtain ⟨count, rfl⟩ := Nat.exists_eq_succ_of_ne_zero hcount.ne'
    rcases Nat.eq_zero_or_pos count with rfl | hpos
    · simpa using first (by simpa using hlength)
    · have hmore := rest count hpos (by
        rw [List.length_drop]
        rw [Nat.succ_mul] at hlength
        omega)
      have hmul : 0 < count * size := Nat.mul_pos hpos hsize
      rw [List.getElem?_drop, List.getElem?_drop] at hmore
      rw [Nat.succ_mul]
      rwa [show size + (count * size - 1) = count * size + size - 1 by
        omega, show size + count * size = count * size + size by omega]
        at hmore

theorem cleanCuts_short {size : Nat} {keys : List Key}
    (h : keys.length ≤ size) : CleanCuts size keys := by
  intro count hcount hlength
  have := Nat.le_mul_of_pos_left size hcount
  omega

/-! ## Pages -/

variable [LinearOrder Key] {key : Row → Key}

def Descending (key : Row → Key) (rows : List Row) : Prop :=
  rows.Pairwise fun first second => key second ≤ key first

/-- The rows a cursor leaves. -/
def below (key : Row → Key) (before : Option Key) (row : Row) : Bool :=
  before.all fun bound => key row < bound

/-- What is read behind each cursor, with ties in any order. -/
structure Query (key : Row → Key) (rows : List Row) where
  answer : Option Key → List Row
  perm : ∀ before, (answer before).Perm (rows.filter (below key before))
  descending : ∀ before, Descending key (answer before)

def nextCursor (key : Row → Key) (size : Nat) (page : List Row) :
    Option Key :=
  if page.length = size then page.getLast?.map key else none

def walk (key : Row → Key) (answer : Option Key → List Row) (size : Nat) :
    Nat → Option Key → Option (List (List Row))
  | 0, _ => none
  | fuel + 1, before =>
      let page := (answer before).take size
      match nextCursor key size page with
      | none => some [page]
      | some bound => (walk key answer size fuel (some bound)).map (page :: ·)

section Walk

variable {rows : List Row} (query : Query key rows)

theorem Query.next_perm {before : Option Key} {bound : Key}
    (hbound : before.all fun upper => bound < upper) :
    (query.answer (some bound)).Perm
      ((query.answer before).filter fun row => key row < bound) := by
  refine (query.perm (some bound)).trans ?_
  have hrows : rows.filter (below key (some bound)) =
      (rows.filter (below key before)).filter fun row => key row < bound := by
    rw [List.filter_filter]
    congr 1
    funext row
    cases before with
    | none => simp [below]
    | some upper =>
        have hless : bound < upper := by simpa using hbound
        by_cases hrow : key row < bound
        · simp [below, hrow, hrow.trans hless]
        · simp [below, hrow]
  rw [hrows]
  exact ((query.perm before).filter _).symm

theorem Query.key_below {before : Option Key} {row : Row}
    (hmem : row ∈ query.answer before) :
    before.all fun upper => key row < upper := by
  have hrow := (query.perm before).mem_iff.mp hmem
  simpa [below] using (List.mem_filter.mp hrow).2

theorem Descending.keys_eq {first second : List Row}
    (hfirst : Descending key first) (hsecond : Descending key second)
    (hperm : first.Perm second) : first.map key = second.map key := by
  have hone : (first.map key).Pairwise fun one two => two ≤ one :=
    List.pairwise_map.mpr hfirst
  have htwo : (second.map key).Pairwise fun one two => two ≤ one :=
    List.pairwise_map.mpr hsecond
  refine (hperm.map key).eq_of_pairwise ?_ hone htwo
  intro one two _ _ hle hge
  exact le_antisymm hge hle

/-- The rows behind a full page and what the next cursor leaves of them. -/
structure Cut (key : Row → Key) (size : Nat) (rows page rest : List Row)
    (bound : Key) : Prop where
  rows : rows = page ++ rest
  full : page.length = size
  last : page.getLast?.map key = some bound
  above : ∀ row ∈ page, bound ≤ key row
  behind : ∀ row ∈ rest, key row ≤ bound

theorem cut_of_nextCursor {size : Nat} {rows : List Row} {bound : Key}
    (descending : Descending key rows)
    (h : nextCursor key size (rows.take size) = some bound) :
    Cut key size rows (rows.take size) (rows.drop size) bound := by
  unfold nextCursor at h
  split at h
  · rename_i hfull
    refine ⟨(List.take_append_drop size rows).symm, hfull, h, ?_, ?_⟩
    all_goals
      obtain ⟨row, hrow, rfl⟩ := Option.map_eq_some_iff.mp h
      obtain ⟨before, hpage⟩ := List.getLast?_eq_some_iff.mp hrow
      have hsplit := List.take_append_drop size rows
      rw [hpage] at hsplit
      have hsorted := descending
      rw [← hsplit] at hsorted
    · intro other hother
      rw [hpage] at hother
      rcases List.mem_append.mp hother with hmem | hmem
      · have hparts := (List.pairwise_append.mp hsorted).1
        exact (List.pairwise_append.mp hparts).2.2 other hmem row
          (List.mem_singleton.mpr rfl)
      · rw [List.mem_singleton.mp hmem]
    · intro other hother
      exact (List.pairwise_append.mp hsorted).2.2 row
        (List.mem_append_right before (List.mem_singleton.mpr rfl)) other
        hother
  · cases h

namespace Cut

variable {size : Nat} {all page rest : List Row} {bound : Key}
  (cut : Cut key size all page rest bound)

include cut

theorem length_eq : all.length = size + rest.length := by
  rw [cut.rows, List.length_append, cut.full]

theorem filter_eq :
    (all.filter fun row => key row < bound) =
      rest.filter fun row => key row < bound := by
  have hnone : page.filter (fun row => key row < bound) = [] := by
    rw [List.filter_eq_nil_iff]
    intro row hmem
    simpa using cut.above row hmem
  rw [cut.rows, List.filter_append, hnone, List.nil_append]

theorem clean_iff (descending : Descending key rest) (hsize : 0 < size) :
    (∀ row ∈ rest, key row < bound) ↔
      (size < (all.map key).length →
        (all.map key)[size - 1]? ≠ (all.map key)[size]?) := by
  have hlast : (all.map key)[size - 1]? = some bound := by
    rw [cut.rows, List.map_append, List.getElem?_append_left (by
      rw [List.length_map, cut.full]
      omega), ← cut.last, List.getLast?_eq_getElem?, cut.full,
      List.getElem?_map]
  have hnext : (all.map key)[size]? = rest.head?.map key := by
    rw [cut.rows, List.map_append, List.getElem?_append_right (by
      rw [List.length_map, cut.full]), List.length_map, cut.full,
      Nat.sub_self, List.getElem?_map, List.head?_eq_getElem?]
  rw [hlast, hnext, List.length_map, cut.length_eq]
  cases rest with
  | nil => simp
  | cons row rest =>
      have hrest := (List.pairwise_cons.mp descending).1
      have hrow := cut.behind row List.mem_cons_self
      constructor
      · intro hall _ heq
        have hless := hall row List.mem_cons_self
        have hbound : bound = key row := by simpa using heq
        exact absurd hbound hless.ne'
      · intro hne other hother
        have hdiffer : bound ≠ key row := by simpa using hne
        have hless : key row < bound := lt_of_le_of_ne hrow hdiffer.symm
        rcases List.mem_cons.mp hother with rfl | hmem
        · exact hless
        · exact lt_of_le_of_lt (hrest other hmem) hless

end Cut

/-! ## Walks -/

variable {query} {size : Nat} {before : Option Key}

theorem Query.next {bound : Key}
    (h : nextCursor key size ((query.answer before).take size) = some bound) :
    (query.answer (some bound)).Perm
      (((query.answer before).drop size).filter fun row =>
        key row < bound) := by
  have cut := cut_of_nextCursor (query.descending before) h
  obtain ⟨row, hrow, rfl⟩ := Option.map_eq_some_iff.mp cut.last
  have hmem : row ∈ query.answer before :=
    List.mem_of_mem_take (List.mem_of_getLast? hrow)
  rw [← cut.filter_eq]
  exact query.next_perm (query.key_below hmem)

theorem Query.next_clean {bound : Key}
    (h : nextCursor key size ((query.answer before).take size) = some bound)
    (clean : ∀ row ∈ (query.answer before).drop size, key row < bound) :
    (query.answer (some bound)).Perm ((query.answer before).drop size) ∧
      (query.answer (some bound)).map key =
        ((query.answer before).map key).drop size := by
  have hperm := query.next h
  rw [List.filter_eq_self.mpr (by simpa using clean)] at hperm
  refine ⟨hperm, ?_⟩
  rw [← List.map_drop]
  exact (query.descending _).keys_eq
    ((query.descending before).drop) hperm

omit [LinearOrder Key] in
theorem short_of_nextCursor (hsize : 0 < size) {rows : List Row}
    (h : nextCursor key size (rows.take size) = none) :
    rows.length < size := by
  unfold nextCursor at h
  split at h
  · rename_i hfull
    rw [Option.map_eq_none_iff, List.getLast?_eq_none_iff] at h
    rw [h] at hfull
    exact absurd hfull hsize.ne
  · rename_i hshort
    rw [List.length_take] at hshort
    omega

theorem walk_count (hsize : 0 < size) (fuel : Nat) {pages : List (List Row)}
    (h : walk key query.answer size fuel before = some pages) :
    pages.flatten.length ≤ (query.answer before).length ∧
      (pages.flatten.length = (query.answer before).length ↔
        CleanCuts size ((query.answer before).map key)) := by
  induction fuel generalizing before pages with
  | zero => cases h
  | succ fuel ih =>
      rw [walk] at h
      split at h
      · rename_i hnext
        cases h
        have hshort := short_of_nextCursor hsize hnext
        rw [List.take_of_length_le hshort.le]
        have clean : CleanCuts size ((query.answer before).map key) :=
          cleanCuts_short (by simpa using hshort.le)
        simpa using clean
      · rename_i bound hnext
        obtain ⟨more, hmore, rfl⟩ := Option.map_eq_some_iff.mp h
        obtain ⟨hle, heq⟩ := ih hmore
        have cut := cut_of_nextCursor (query.descending before) hnext
        have hrest := (query.next hnext).length_eq
        have hfilter := List.length_filter_le (fun row => key row < bound)
          ((query.answer before).drop size)
        have htotal := cut.length_eq
        have hpages :
            (((query.answer before).take size) :: more).flatten.length =
              size + more.flatten.length := by
          rw [List.flatten_cons, List.length_append, cut.full]
        rw [hpages, htotal]
        refine ⟨by omega, ?_⟩
        rw [cleanCuts_iff hsize,
          ← cut.clean_iff ((query.descending before).drop) hsize]
        constructor
        · intro hall
          have hkept : (((query.answer before).drop size).filter fun row =>
              key row < bound).length =
                ((query.answer before).drop size).length := by omega
          have clean : ∀ row ∈ (query.answer before).drop size,
              key row < bound := by
            simpa using List.length_filter_eq_length_iff.mp hkept
          obtain ⟨hperm, hkeys⟩ := query.next_clean hnext clean
          refine ⟨clean, ?_⟩
          rw [← hkeys]
          exact heq.mp (by rw [hperm.length_eq]; omega)
        · rintro ⟨clean, hclean⟩
          obtain ⟨hperm, hkeys⟩ := query.next_clean hnext clean
          rw [← hkeys] at hclean
          rw [heq.mpr hclean, hperm.length_eq]

theorem walk_clean (hsize : 0 < size) (fuel : Nat) {pages : List (List Row)}
    (h : walk key query.answer size fuel before = some pages)
    (clean : CleanCuts size ((query.answer before).map key)) :
    pages.flatten.Perm (query.answer before) ∧
      Descending key pages.flatten := by
  induction fuel generalizing before pages with
  | zero => cases h
  | succ fuel ih =>
      rw [walk] at h
      split at h
      · rename_i hnext
        cases h
        have hshort := short_of_nextCursor hsize hnext
        rw [List.take_of_length_le hshort.le, List.flatten_singleton]
        exact ⟨.refl _, query.descending before⟩
      · rename_i bound hnext
        obtain ⟨more, hmore, rfl⟩ := Option.map_eq_some_iff.mp h
        have cut := cut_of_nextCursor (query.descending before) hnext
        rw [cleanCuts_iff hsize,
          ← cut.clean_iff ((query.descending before).drop) hsize] at clean
        obtain ⟨hless, hclean⟩ := clean
        obtain ⟨hperm, hkeys⟩ := query.next_clean hnext hless
        rw [← hkeys] at hclean
        obtain ⟨hrest, hsorted⟩ := ih hmore hclean
        have hall := hrest.trans hperm
        rw [List.flatten_cons]
        constructor
        · conv_rhs => rw [cut.rows]
          exact hall.append_left _
        · refine List.pairwise_append.mpr
            ⟨(query.descending before).take, hsorted, ?_⟩
          intro row hrow other hother
          exact (cut.behind other (hall.subset hother)).trans
            (cut.above row hrow)

theorem walk_ends (hsize : 0 < size) {fuel : Nat}
    (h : (query.answer before).length < fuel) :
    ∃ pages, walk key query.answer size fuel before = some pages := by
  induction fuel generalizing before with
  | zero => omega
  | succ fuel ih =>
      rw [walk]
      split
      · exact ⟨_, rfl⟩
      · rename_i bound hnext
        have cut := cut_of_nextCursor (query.descending before) hnext
        have hrest := (query.next hnext).length_eq
        have hfilter := List.length_filter_le (fun row => key row < bound)
          ((query.answer before).drop size)
        have htotal := cut.length_eq
        obtain ⟨more, hmore⟩ := @ih (some bound) (by omega)
        exact ⟨_, by rw [hmore]; rfl⟩

end Walk

end Susm.Foundation.KeysetPaging
