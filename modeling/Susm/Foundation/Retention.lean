import Mathlib.Algebra.BigOperators.Group.List.Basic
import Mathlib.Algebra.GroupWithZero.Nat
import Mathlib.Data.List.Sort
import Mathlib.Data.List.TakeWhile
import Mathlib.Order.Lattice

/-!
# Removing files by age and by total size

Two passes over the files, oldest first.  The first removes and marks those
that are too old.  The second goes on removing unmarked files until the rest is
small enough.  A removal that fails ends both.
-/

namespace Susm.Foundation.Retention

variable {Path Error : Type}

structure FinalizedFile (Path : Type) where
  path : Path
  modified : Int
  bytes : Nat
  removed : Bool
  deriving DecidableEq, Repr

/-- `now.duration_since(modified).unwrap_or_default()` -/
def durationSince (now modified : Int) : Nat := (now - modified).toNat

def isExpired (age : Nat) (now : Int) (file : FinalizedFile Path) : Bool :=
  age < durationSince now file.modified

def sortByModified (files : List (FinalizedFile Path)) :
    List (FinalizedFile Path) :=
  files.insertionSort fun first second => first.modified ≤ second.modified

def sumBytes (files : List (FinalizedFile Path)) : Nat :=
  (files.map FinalizedFile.bytes).sum

/-- The paths that were removed, and how the pass ended. -/
structure Removals (Path Error Value : Type) where
  paths : List Path
  result : Except Error Value

section Passes

variable (remove : Path → Except Error Unit)

/-- The first pass gives the files with their marks. -/
def removeExpired (expired : FinalizedFile Path → Bool) :
    List (FinalizedFile Path) →
      Removals Path Error (List (FinalizedFile Path))
  | [] => ⟨[], .ok []⟩
  | file :: files =>
      if expired file then
        match remove file.path with
        | .error error => ⟨[], .error error⟩
        | .ok () =>
            let rest := removeExpired expired files
            ⟨file.path :: rest.paths,
              rest.result.map fun files =>
                { file with removed := true } :: files⟩
      else
        let rest := removeExpired expired files
        ⟨rest.paths, rest.result.map fun files => file :: files⟩

/-- The second pass, with the bytes that are still there. -/
def removeExcess (limit : Nat) :
    Nat → List (FinalizedFile Path) → Removals Path Error Unit
  | _, [] => ⟨[], .ok ()⟩
  | bytes, file :: files =>
      if bytes ≤ limit then ⟨[], .ok ()⟩
      else if file.removed then removeExcess limit bytes files
      else
        match remove file.path with
        | .error error => ⟨[], .error error⟩
        | .ok () =>
            let rest := removeExcess limit (bytes - file.bytes) files
            ⟨file.path :: rest.paths, rest.result⟩

structure Limits where
  age : Option Nat
  size : Option Nat
  deriving DecidableEq, Repr

/-- A sum of `u64`, which wraps. -/
def storedBytes (files : List (FinalizedFile Path)) : Nat :=
  sumBytes (files.filter fun file => !file.removed) % 2 ^ 64

/-- The first pass, unless files of any age are kept. -/
def removeAged (limits : Limits) (now : Int)
    (files : List (FinalizedFile Path)) :
    Removals Path Error (List (FinalizedFile Path)) :=
  match limits.age with
  | none => ⟨[], .ok files⟩
  | some age => removeExpired remove (isExpired age now) files

/-- The second pass, unless any number of bytes is kept. -/
def removeOversize (limits : Limits) (files : List (FinalizedFile Path)) :
    Removals Path Error Unit :=
  match limits.size with
  | none => ⟨[], .ok ()⟩
  | some limit => removeExcess remove limit (storedBytes files) files

def applyLimits (limits : Limits) (now : Int)
    (files : List (FinalizedFile Path)) : Removals Path Error Unit :=
  let aged := removeAged remove limits now (sortByModified files)
  match aged.result with
  | .error error => ⟨aged.paths, .error error⟩
  | .ok files =>
      let sized := removeOversize remove limits files
      ⟨aged.paths ++ sized.paths, sized.result⟩

end Passes

/-! ## What is to be removed -/

def excess (limit : Nat) :
    Nat → List (FinalizedFile Path) → List (FinalizedFile Path)
  | _, [] => []
  | bytes, file :: files =>
      if bytes ≤ limit then []
      else file :: excess limit (bytes - file.bytes) files

namespace Limits

variable (limits : Limits) (now : Int) (files : List (FinalizedFile Path))

def expires (file : FinalizedFile Path) : Bool :=
  limits.age.any fun age => isExpired age now file

def expired : List (FinalizedFile Path) :=
  (sortByModified files).filter (limits.expires now)

def unexpired : List (FinalizedFile Path) :=
  (sortByModified files).filter fun file => !limits.expires now file

/-- The bytes of the files that are left by the first pass. -/
def measured : Nat := sumBytes (limits.unexpired now files) % 2 ^ 64

def oversize : List (FinalizedFile Path) :=
  match limits.size with
  | none => []
  | some limit =>
      excess limit (limits.measured now files) (limits.unexpired now files)

/-- The files that both passes remove when no removal fails. -/
def planned : List (FinalizedFile Path) :=
  limits.expired now files ++ limits.oversize now files

end Limits

/-! ## What is removed -/

section Removed

variable {remove : Path → Except Error Unit} {limit bytes : Nat}
  {expired : FinalizedFile Path → Bool} {files : List (FinalizedFile Path)}

def canRemove (remove : Path → Except Error Unit)
    (file : FinalizedFile Path) : Bool := (remove file.path).toBool

def mark (expired : FinalizedFile Path → Bool) (file : FinalizedFile Path) :
    FinalizedFile Path :=
  if expired file then { file with removed := true } else file

theorem removeExpired_paths :
    (removeExpired remove expired files).paths =
      ((files.filter expired).takeWhile (canRemove remove)).map
        FinalizedFile.path := by
  induction files with
  | nil => rfl
  | cons file files ih =>
      rw [removeExpired]
      split
      · rename_i hexpired
        rw [List.filter_cons_of_pos hexpired]
        cases hremove : remove file.path with
        | error error =>
            rw [List.takeWhile_cons_of_neg (by
              simp [canRemove, hremove, Except.toBool])]
            rfl
        | ok done =>
            rw [List.takeWhile_cons_of_pos (by
              simp [canRemove, hremove, Except.toBool]), List.map_cons, ← ih]
      · rename_i hexpired
        rw [List.filter_cons_of_neg hexpired, ← ih]

theorem removeExpired_result :
    (removeExpired remove expired files).result.toOption =
      if (files.filter expired).all (canRemove remove) then
        some (files.map (mark expired))
      else none := by
  induction files with
  | nil => rfl
  | cons file files ih =>
      rw [removeExpired]
      split
      · rename_i hexpired
        rw [List.filter_cons_of_pos hexpired, List.all_cons]
        cases hremove : remove file.path with
        | error error =>
            simp [canRemove, hremove, Except.toBool, Except.toOption]
        | ok done =>
            have hmark : mark expired file = { file with removed := true } :=
              if_pos hexpired
            cases hrest : (removeExpired remove expired files).result <;>
              rw [hrest] at ih <;>
              simp_all [canRemove, Except.toBool, Except.toOption, Except.map]
      · rename_i hexpired
        have hmark : mark expired file = file := if_neg hexpired
        rw [List.filter_cons_of_neg hexpired]
        cases hrest : (removeExpired remove expired files).result <;>
          rw [hrest] at ih <;>
          simp_all [Except.toOption, Except.map]

theorem removeExcess_paths :
    (removeExcess remove limit bytes files).paths =
      ((excess limit bytes
        (files.filter fun file => !file.removed)).takeWhile
          (canRemove remove)).map FinalizedFile.path := by
  induction files generalizing bytes with
  | nil => rfl
  | cons file files ih =>
      rw [removeExcess]
      by_cases hsmall : bytes ≤ limit
      · rw [if_pos hsmall]
        cases hleft : (file :: files).filter fun file => !file.removed with
        | nil => rfl
        | cons first rest => simp [excess, hsmall]
      rw [if_neg hsmall]
      by_cases hmark : file.removed
      · rw [if_pos hmark, ih, List.filter_cons_of_neg (by simpa using hmark)]
      rw [if_neg hmark, List.filter_cons_of_pos (by simpa using hmark), excess,
        if_neg hsmall]
      cases hremove : remove file.path with
      | error error =>
          rw [List.takeWhile_cons_of_neg (by
            simp [canRemove, hremove, Except.toBool])]
          rfl
      | ok done =>
          rw [List.takeWhile_cons_of_pos (by
            simp [canRemove, hremove, Except.toBool]), List.map_cons, ← ih]

theorem filter_mark (unmarked : ∀ file ∈ files, file.removed = false) :
    ((files.map (mark expired)).filter fun file => !file.removed) =
      files.filter fun file => !expired file := by
  induction files with
  | nil => rfl
  | cons file files ih =>
      obtain ⟨hfile, hfiles⟩ := List.forall_mem_cons.mp unmarked
      rw [List.map_cons]
      by_cases hexpired : expired file
      · rw [List.filter_cons_of_neg (by simp [mark, hexpired]),
          List.filter_cons_of_neg (by simp [hexpired]), ih hfiles]
      · rw [List.filter_cons_of_pos (by simp [mark, hexpired, hfile]),
          List.filter_cons_of_pos (by simp [hexpired]), ih hfiles, mark,
          if_neg hexpired]

theorem takeWhile_append_of_not_all {first second : List (FinalizedFile Path)}
    (h : first.all (canRemove remove) = false) :
    (first ++ second).takeWhile (canRemove remove) =
      first.takeWhile (canRemove remove) := by
  induction first with
  | nil => cases h
  | cons file first ih =>
      rw [List.cons_append]
      by_cases hfile : canRemove remove file
      · rw [List.takeWhile_cons_of_pos hfile, List.takeWhile_cons_of_pos hfile,
          ih (by simpa [hfile] using h)]
      · rw [List.takeWhile_cons_of_neg hfile, List.takeWhile_cons_of_neg hfile]

variable {limits : Limits} {now : Int}

theorem expires_none (h : limits.age = none) :
    limits.expires now = fun _ : FinalizedFile Path => false := by
  funext file
  rw [Limits.expires, h, Option.any_none]

theorem expires_some {age : Nat} (h : limits.age = some age) :
    limits.expires now =
      (isExpired age now : FinalizedFile Path → Bool) := by
  funext file
  rw [Limits.expires, h, Option.any_some]

theorem removeAged_paths :
    (removeAged remove limits now files).paths =
      ((files.filter (limits.expires now)).takeWhile (canRemove remove)).map
        FinalizedFile.path := by
  rw [removeAged]
  cases hage : limits.age with
  | none => simp [expires_none hage]
  | some age => rw [expires_some hage, removeExpired_paths]

theorem removeAged_result :
    (removeAged remove limits now files).result.toOption =
      if (files.filter (limits.expires now)).all (canRemove remove) then
        some (files.map (mark (limits.expires now)))
      else none := by
  rw [removeAged]
  cases hage : limits.age with
  | none =>
      have hmark : mark (fun _ : FinalizedFile Path => false) = id := by
        funext file
        exact if_neg Bool.false_ne_true
      simp [expires_none hage, hmark, Except.toOption]
  | some age => rw [expires_some hage, removeExpired_result]

theorem removeOversize_paths :
    (removeOversize remove limits files).paths =
      ((match limits.size with
        | none => []
        | some limit => excess limit (storedBytes files)
            (files.filter fun file => !file.removed)).takeWhile
          (canRemove remove)).map FinalizedFile.path := by
  rw [removeOversize]
  cases limits.size with
  | none => rfl
  | some limit => exact removeExcess_paths

theorem applyLimits_paths (unmarked : ∀ file ∈ files, file.removed = false) :
    (applyLimits remove limits now files).paths =
      ((limits.planned now files).takeWhile (canRemove remove)).map
        FinalizedFile.path := by
  have hsorted : ∀ file ∈ sortByModified files, file.removed = false :=
    fun file hmem => unmarked file ((List.mem_insertionSort _).mp hmem)
  have hpaths : (removeAged remove limits now (sortByModified files)).paths =
      ((limits.expired now files).takeWhile (canRemove remove)).map
        FinalizedFile.path := removeAged_paths
  have hresult : (removeAged remove limits now
      (sortByModified files)).result.toOption =
        if (limits.expired now files).all (canRemove remove) then _ else _ :=
    removeAged_result
  rw [applyLimits, Limits.planned]
  dsimp only
  cases hall : (limits.expired now files).all (canRemove remove) with
  | false =>
      rw [takeWhile_append_of_not_all hall]
      rw [hall] at hresult
      cases haged : (removeAged remove limits now
          (sortByModified files)).result with
      | error error => exact hpaths
      | ok marked => simp [haged, Except.toOption] at hresult
  | true =>
      rw [hall, if_pos rfl] at hresult
      cases haged : (removeAged remove limits now
          (sortByModified files)).result with
      | error error => simp [haged, Except.toOption] at hresult
      | ok marked =>
          rw [haged] at hresult
          obtain rfl := Option.some.inj hresult
          rw [List.takeWhile_append_of_pos (List.all_eq_true.mp hall),
            List.map_append]
          dsimp only
          rw [hpaths, removeOversize_paths, storedBytes, filter_mark hsorted,
            List.takeWhile_eq_self_iff.mpr (List.all_eq_true.mp hall)]
          rfl

theorem canRemove_of_ok (noErrors : ∀ path, remove path = .ok ())
    (file : FinalizedFile Path) : canRemove remove file = true := by
  simp [canRemove, noErrors, Except.toBool]

theorem applyLimits_paths_of_ok (noErrors : ∀ path, remove path = .ok ())
    (unmarked : ∀ file ∈ files, file.removed = false) :
    (applyLimits remove limits now files).paths =
      (limits.planned now files).map FinalizedFile.path := by
  rw [applyLimits_paths unmarked, List.takeWhile_eq_self_iff.mpr]
  exact fun file _ => canRemove_of_ok noErrors file

theorem removeExcess_result_of_ok (noErrors : ∀ path, remove path = .ok ()) :
    (removeExcess remove limit bytes files).result = .ok () := by
  induction files generalizing bytes with
  | nil => rfl
  | cons file files ih =>
      rw [removeExcess, noErrors]
      split
      · rfl
      · split <;> exact ih

theorem applyLimits_result_of_ok (noErrors : ∀ path, remove path = .ok ()) :
    (applyLimits remove limits now files).result = .ok () := by
  have hresult : (removeAged remove limits now
      (sortByModified files)).result.toOption = _ := removeAged_result
  rw [if_pos (List.all_eq_true.mpr fun file _ =>
    canRemove_of_ok noErrors file)] at hresult
  rw [applyLimits]
  dsimp only
  cases haged : (removeAged remove limits now
      (sortByModified files)).result with
  | error error => simp [haged, Except.toOption] at hresult
  | ok marked =>
      dsimp only
      rw [removeOversize]
      cases limits.size with
      | none => rfl
      | some limit => exact removeExcess_result_of_ok noErrors

end Removed

/-! ## The shortest prefix -/

section Shortest

variable {limit bytes : Nat} {files : List (FinalizedFile Path)}

@[simp] theorem sumBytes_cons (file : FinalizedFile Path)
    (files : List (FinalizedFile Path)) :
    sumBytes (file :: files) = file.bytes + sumBytes files := rfl

@[simp] theorem sumBytes_append (first second : List (FinalizedFile Path)) :
    sumBytes (first ++ second) = sumBytes first + sumBytes second := by
  simp [sumBytes]

theorem sumBytes_filter_le (keep : FinalizedFile Path → Bool)
    (files : List (FinalizedFile Path)) :
    sumBytes (files.filter keep) ≤ sumBytes files := by
  induction files with
  | nil => exact le_rfl
  | cons file files ih =>
      rw [List.filter_cons]
      split <;> simp only [sumBytes_cons] <;> omega

theorem length_lt_excess_iff {before after : List (FinalizedFile Path)}
    {file : FinalizedFile Path} :
    before.length < (excess limit bytes (before ++ file :: after)).length ↔
      limit < bytes - sumBytes before := by
  induction before generalizing bytes with
  | nil =>
      rw [List.nil_append, excess]
      split <;> simp [sumBytes] <;> omega
  | cons first before ih =>
      rw [List.cons_append, excess]
      split
      · simp
        omega
      · rw [List.length_cons, List.length_cons, Nat.succ_lt_succ_iff, ih,
          sumBytes_cons, Nat.sub_add_eq]

theorem excess_start (limit bytes : Nat)
    (files : List (FinalizedFile Path)) :
    excess limit bytes files <+: files := by
  induction files generalizing bytes with
  | nil => exact List.prefix_rfl
  | cons file files ih =>
      rw [excess]
      split
      · exact List.nil_prefix
      · exact (List.prefix_cons_inj file).mpr (ih _)

theorem sumBytes_rest_le {kept : List (FinalizedFile Path)}
    (h : files = excess limit (sumBytes files) files ++ kept) :
    sumBytes kept ≤ limit := by
  cases kept with
  | nil => exact Nat.zero_le _
  | cons file kept =>
      have hend : (excess limit (sumBytes files) files).length <
          (excess limit (sumBytes files)
            (excess limit (sumBytes files) files ++ file :: kept)).length ↔
          _ := length_lt_excess_iff
      rw [← h] at hend
      have hsum := congrArg sumBytes h
      rw [sumBytes_append] at hsum
      omega

theorem excess_shortest {first rest : List (FinalizedFile Path)}
    (hsplit : files = first ++ rest) (hsmall : sumBytes rest ≤ limit) :
    (excess limit (sumBytes files) files).length ≤ first.length := by
  subst hsplit
  cases rest with
  | nil =>
      rw [List.append_nil]
      exact (excess_start limit _ first).length_le
  | cons file rest =>
      rw [← not_lt, length_lt_excess_iff, sumBytes_append]
      omega

end Shortest

/-! ## Single files -/

namespace Limits

variable (limits : Limits) (now : Int) (files : List (FinalizedFile Path))

/-- The expired files, then the others, each oldest first. -/
def order : List (FinalizedFile Path) :=
  limits.expired now files ++ limits.unexpired now files

/-- The file is young enough, and with the unexpired files behind it small
enough. -/
structure Within (before : List (FinalizedFile Path))
    (file : FinalizedFile Path) : Prop where
  age : limits.expires now file = false
  size : ∀ limit ∈ limits.size,
    limits.measured now files -
      sumBytes (before.filter fun file => !limits.expires now file) ≤ limit

variable {limits now files}

theorem planned_prefix :
    limits.planned now files <+: limits.order now files := by
  refine (List.prefix_append_right_inj _).mpr ?_
  rw [oversize]
  cases limits.size with
  | none => exact List.nil_prefix
  | some limit => exact excess_start limit _ _

theorem length_lt_oversize_iff {before after : List (FinalizedFile Path)}
    {file : FinalizedFile Path}
    (h : limits.unexpired now files = before ++ file :: after) :
    before.length < (limits.oversize now files).length ↔
      ∃ limit ∈ limits.size,
        limit < limits.measured now files - sumBytes before := by
  rw [oversize]
  cases limits.size with
  | none => simp
  | some limit =>
      dsimp only
      rw [h, length_lt_excess_iff]
      simp

theorem expires_of_mem_expired {file : FinalizedFile Path}
    (h : file ∈ limits.expired now files) : limits.expires now file = true :=
  (List.mem_filter.mp h).2

theorem expires_of_mem_unexpired {file : FinalizedFile Path}
    (h : file ∈ limits.unexpired now files) :
    limits.expires now file = false := by
  simpa using (List.mem_filter.mp h).2

theorem order_cases {before after : List (FinalizedFile Path)}
    {file : FinalizedFile Path}
    (h : limits.order now files = before ++ file :: after) :
    (limits.expires now file = true ∧
      before.length < (limits.expired now files).length) ∨
    ∃ middle, limits.expires now file = false ∧
      before = limits.expired now files ++ middle ∧
      limits.unexpired now files = middle ++ file :: after := by
  rcases List.append_eq_append_iff.mp h with
    ⟨middle, hbefore, hrest⟩ | ⟨middle, hexpired, hrest⟩
  · have hmem : file ∈ limits.unexpired now files := by simp [hrest]
    exact .inr ⟨middle, expires_of_mem_unexpired hmem, hbefore, hrest⟩
  · cases middle with
    | nil =>
        rw [List.append_nil] at hexpired
        rw [List.nil_append] at hrest
        have hmem : file ∈ limits.unexpired now files := by simp [← hrest]
        exact .inr ⟨[], expires_of_mem_unexpired hmem, by simp [hexpired],
          hrest.symm⟩
    | cons first middle =>
        rw [List.cons_append, List.cons.injEq] at hrest
        obtain ⟨rfl, -⟩ := hrest
        have hmem : file ∈ limits.expired now files := by simp [hexpired]
        exact .inl ⟨expires_of_mem_expired hmem, by simp [hexpired]⟩

theorem filter_unexpired {middle after : List (FinalizedFile Path)}
    (h : limits.unexpired now files = middle ++ after) :
    (limits.expired now files ++ middle).filter
      (fun file => !limits.expires now file) = middle := by
  rw [List.filter_append, List.filter_eq_nil_iff.mpr, List.nil_append,
    List.filter_eq_self.mpr]
  · intro file hmem
    have hfile : file ∈ limits.unexpired now files := by simp [h, hmem]
    simp [expires_of_mem_unexpired hfile]
  · intro file hmem
    simp [expires_of_mem_expired hmem]

/-- A file is planned to be removed unless it is within the limits. -/
theorem length_lt_planned_iff {before after : List (FinalizedFile Path)}
    {file : FinalizedFile Path}
    (h : limits.order now files = before ++ file :: after) :
    before.length < (limits.planned now files).length ↔
      ¬ limits.Within now files before file := by
  rw [planned, List.length_append]
  rcases order_cases h with ⟨hage, hlength⟩ | ⟨middle, hage, rfl, hrest⟩
  · have hnot : ¬ limits.Within now files before file := fun within =>
      Bool.false_ne_true (within.age.symm.trans hage)
    simp only [hnot, not_false_eq_true, iff_true]
    omega
  · rw [List.length_append, Nat.add_lt_add_iff_left,
      length_lt_oversize_iff hrest]
    have hfilter := filter_unexpired hrest
    constructor
    · rintro ⟨limit, hlimit, hlt⟩ within
      have hle := within.size limit hlimit
      rw [hfilter] at hle
      omega
    · intro hnot
      by_contra hsmall
      refine hnot ⟨hage, fun limit hlimit => ?_⟩
      rw [hfilter]
      by_contra hlarge
      exact hsmall ⟨limit, hlimit, not_le.mp hlarge⟩

end Limits

section Single

variable {File : Type} {first second before after : List File} {file : File}

theorem length_lt_takeWhile_iff {keep : File → Bool}
    (h : second = before ++ file :: after) :
    before.length < (second.takeWhile keep).length ↔
      ∀ other ∈ before ++ [file], keep other := by
  subst h
  induction before with
  | nil =>
      rw [List.nil_append, List.takeWhile_cons]
      split <;> simp [*]
  | cons head before ih =>
      rw [List.cons_append, List.takeWhile_cons]
      split <;> simp_all

theorem forall_mem_prefix_iff {Holds : File → Prop} (h : first <+: second) :
    (∀ item ∈ first, Holds item) ↔
      ∀ before item after, second = before ++ item :: after →
        before.length < first.length → Holds item := by
  obtain ⟨rest, rfl⟩ := h
  constructor
  · rintro hall before item after hsplit hlength
    refine hall item ?_
    have hitem := congrArg (fun items => items[before.length]?) hsplit
    simp only [List.getElem?_append_left hlength,
      List.getElem?_append_right le_rfl, Nat.sub_self,
      List.getElem?_cons_zero] at hitem
    exact List.mem_of_getElem? hitem
  · intro hall item hmem
    obtain ⟨before, after, rfl⟩ := List.append_of_mem hmem
    refine hall before item (after ++ rest) (by simp) ?_
    simp

end Single

section Removal

variable {remove : Path → Except Error Unit} {limits : Limits} {now : Int}
  {files : List (FinalizedFile Path)}

/-- A file is removed when it is not within the limits and no removal fails up
to its own. -/
theorem length_lt_removed_iff {before after : List (FinalizedFile Path)}
    {file : FinalizedFile Path}
    (h : limits.order now files = before ++ file :: after) :
    before.length <
        ((limits.planned now files).takeWhile (canRemove remove)).length ↔
      ¬ limits.Within now files before file ∧
        ∀ other ∈ before ++ [file], canRemove remove other := by
  have hplanned := Limits.length_lt_planned_iff h
  rw [← hplanned]
  by_cases hlength : before.length < (limits.planned now files).length
  · have hstart : before ++ [file] <+: limits.planned now files := by
      refine List.prefix_of_prefix_length_le ?_ Limits.planned_prefix ?_
      · exact ⟨after, by simp [h]⟩
      · rw [List.length_append, List.length_singleton]
        exact hlength
    obtain ⟨rest, hrest⟩ := hstart
    have hsplit : limits.planned now files = before ++ file :: rest := by
      simp [← hrest]
    rw [length_lt_takeWhile_iff hsplit]
    simp only [hlength, true_and]
  · have hle := (List.takeWhile_prefix (l := limits.planned now files)
      (canRemove remove)).length_le
    simp only [hlength, false_and, iff_false]
    omega

end Removal

/-! ## Exactness -/

/-- The expired files are removed, and of the others, oldest first, only as
many as have to be. -/
structure RemovesExactly (limits : Limits) (now : Int)
    (files : List (FinalizedFile Path)) (paths : List Path)
    (excess kept : List (FinalizedFile Path)) : Prop where
  split : limits.unexpired now files = excess ++ kept
  paths : paths =
    (limits.expired now files ++ excess).map FinalizedFile.path
  unlimited : limits.size = none → excess = []
  small : ∀ limit ∈ limits.size, sumBytes kept ≤ limit
  shortest : ∀ limit ∈ limits.size, ∀ first rest,
    limits.unexpired now files = first ++ rest → sumBytes rest ≤ limit →
      excess.length ≤ first.length
  oldest : ∀ file ∈ limits.expired now files ++ excess, ∀ other ∈ kept,
    file.modified ≤ other.modified

section Exact

variable {limits : Limits} {now : Int} {files : List (FinalizedFile Path)}

theorem sorted_sortByModified (files : List (FinalizedFile Path)) :
    (sortByModified files).Pairwise fun first second =>
      first.modified ≤ second.modified := by
  have hsorted := List.pairwise_insertionSort
    (fun first second : FinalizedFile Path =>
      first.modified ≤ second.modified) files
  exact hsorted

theorem modified_le_of_expires {file other : FinalizedFile Path}
    (hfile : limits.expires now file) (hother : ¬ limits.expires now other) :
    file.modified ≤ other.modified := by
  obtain ⟨age, size⟩ := limits
  cases age with
  | none => cases hfile
  | some age =>
      simp [Limits.expires, isExpired, durationSince] at hfile hother
      omega

theorem oldest_of_split {excess kept : List (FinalizedFile Path)}
    (split : limits.unexpired now files = excess ++ kept) :
    ∀ file ∈ limits.expired now files ++ excess, ∀ other ∈ kept,
      file.modified ≤ other.modified := by
  intro file hfile other hother
  have hsorted : (limits.unexpired now files).Pairwise _ :=
    (sorted_sortByModified files).filter _
  have hmem : other ∈ limits.unexpired now files := by simp [split, hother]
  have hkept := (List.mem_filter.mp hmem).2
  rw [split] at hsorted
  rcases List.mem_append.mp hfile with hexpired | hexcess
  · exact modified_le_of_expires (List.mem_filter.mp hexpired).2
      (by simpa using hkept)
  · exact (List.pairwise_append.mp hsorted).2.2 file hexcess other hother

theorem sumBytes_unexpired_le :
    sumBytes (limits.unexpired now files) ≤ sumBytes files := by
  have hsorted : sumBytes (sortByModified files) = sumBytes files :=
    ((List.perm_insertionSort _ files).map _).sum_eq
  rw [← hsorted]
  exact sumBytes_filter_le _ _

theorem applyLimits_exact {remove : Path → Except Error Unit}
    (noErrors : ∀ path, remove path = .ok ())
    (unmarked : ∀ file ∈ files, file.removed = false)
    (bounded : sumBytes files < 2 ^ 64) :
    ∃ excess kept, RemovesExactly limits now files
      (applyLimits remove limits now files).paths excess kept := by
  have hmeasured : limits.measured now files =
      sumBytes (limits.unexpired now files) :=
    Nat.mod_eq_of_lt (sumBytes_unexpired_le.trans_lt bounded)
  have hpaths : (applyLimits remove limits now files).paths = _ :=
    applyLimits_paths_of_ok noErrors unmarked
  cases hsize : limits.size with
  | none =>
      refine ⟨[], limits.unexpired now files, rfl, ?_, fun _ => rfl, ?_, ?_,
        oldest_of_split rfl⟩
      · simpa [Limits.planned, Limits.oversize, hsize] using hpaths
      · simp [hsize]
      · simp [hsize]
  | some limit =>
      have hoversize : limits.oversize now files =
          excess limit (sumBytes (limits.unexpired now files))
            (limits.unexpired now files) := by
        rw [Limits.oversize, hsize, hmeasured]
      obtain ⟨kept, hsplit⟩ := excess_start limit
        (sumBytes (limits.unexpired now files)) (limits.unexpired now files)
      refine ⟨_, kept, hsplit.symm, ?_, ?_, ?_, ?_,
        oldest_of_split hsplit.symm⟩
      · rw [hpaths, Limits.planned, hoversize]
      · simp [hsize]
      · intro other hother
        rw [hsize] at hother
        obtain rfl := Option.some.inj hother
        exact sumBytes_rest_le hsplit.symm
      · intro other hother first rest hfirst hrest
        rw [hsize] at hother
        obtain rfl := Option.some.inj hother
        exact excess_shortest hfirst hrest

end Exact

end Susm.Foundation.Retention
