import Susm.Foundation.FileNames
import Susm.Foundation.Retention
import Susm.Protocol.Supervisor

/-!
# Log retention

`apply_retention` of the supervisor looks at all files of a workload whose name
contains `.susm-journal`, whichever attempt they belong to, and removes those
that are too old and the oldest of those that are too many.
-/

namespace Susm.Supervisor

open Susm.Foundation
open Susm.Foundation.Retention
open Susm.Protocol

abbrev LogPath := List String

inductive LogEntry where
  | file (name : String) (modified : Int) (bytes : Nat)
  | directory (name : String) (entries : List LogEntry)

inductive LogError where
  | outsideWorkloadTree
  | noWriter
  | io
  deriving DecidableEq, Repr

/-- `name.contains(".susm-journal")` -/
def isJournalName (name : String) : Bool :=
  ".susm-journal".toList <:+: name.toList

mutual

/-- One round of the loop over the entries of a directory. -/
def collectEntry (root : LogPath) : LogEntry → List (FinalizedFile LogPath)
  | .file name modified bytes =>
      if isJournalName name then [⟨root ++ [name], modified, bytes, false⟩]
      else []
  | .directory name entries => collectFinalized (root ++ [name]) entries

def collectFinalized (root : LogPath) :
    List LogEntry → List (FinalizedFile LogPath)
  | [] => []
  | entry :: entries => collectEntry root entry ++ collectFinalized root entries

end

/-- What the file system and the clock are for one call. -/
structure RetentionHost where
  readTree : LogPath → Except LogError (List LogEntry)
  now : Int
  remove : LogPath → Except LogError Unit

def retentionLimits (configuration : ExecutionConfiguration) : Limits where
  age :=
    if configuration.retentionAgeUnlimited then none
    else some (configuration.retentionAgeMs * 10 ^ 6)
  size :=
    if configuration.retentionSizeUnlimited then none
    else some configuration.retentionSize

/-- The parent of the parent, when there are so many. -/
def workloadTree (attempt : LogPath) : Except LogError LogPath :=
  if attempt.length < 2 then .error .outsideWorkloadTree
  else .ok (attempt.take (attempt.length - 2))

/-- The files that are candidates for removal. -/
def finalizedFiles (attempt : LogPath) (host : RetentionHost) :
    Except LogError (List (FinalizedFile LogPath)) := do
  let workload ← workloadTree attempt
  let entries ← host.readTree workload
  return collectFinalized workload entries

def applyRetention (attempt : LogPath)
    (configuration : ExecutionConfiguration) (host : RetentionHost) :
    Removals LogPath LogError Unit :=
  match finalizedFiles attempt host with
  | .error error => ⟨[], .error error⟩
  | .ok files =>
      applyLimits host.remove (retentionLimits configuration) host.now files

mutual

theorem collectEntry_unmarked (root : LogPath) (entry : LogEntry) :
    ∀ file ∈ collectEntry root entry, file.removed = false := by
  cases entry with
  | file name modified bytes =>
      rw [collectEntry]
      split <;> simp
  | directory name entries =>
      rw [collectEntry]
      exact collectFinalized_unmarked (root ++ [name]) entries

theorem collectFinalized_unmarked (root : LogPath)
    (entries : List LogEntry) :
    ∀ file ∈ collectFinalized root entries, file.removed = false := by
  cases entries with
  | nil => simp [collectFinalized]
  | cons entry entries =>
      rw [collectFinalized]
      exact List.forall_mem_append.mpr
        ⟨collectEntry_unmarked root entry,
          collectFinalized_unmarked root entries⟩

end

theorem finalizedFiles_unmarked {attempt : LogPath} {host : RetentionHost}
    {files : List (FinalizedFile LogPath)}
    (h : finalizedFiles attempt host = .ok files) :
    ∀ file ∈ files, file.removed = false := by
  unfold finalizedFiles at h
  cases htree : workloadTree attempt with
  | error error => simp [htree, bind, Except.bind] at h
  | ok workload =>
      cases hread : host.readTree workload with
      | error error => simp [htree, hread, bind, Except.bind] at h
      | ok entries =>
          simp only [htree, hread, bind, Except.bind, pure, Except.pure,
            Except.ok.injEq] at h
          subst h
          exact collectFinalized_unmarked workload entries

section Applied

variable {attempt : LogPath} {configuration : ExecutionConfiguration}
  {host : RetentionHost}
  {files : List (FinalizedFile LogPath)}

theorem applyRetention_paths
    (h : finalizedFiles attempt host = .ok files) :
    (applyRetention attempt configuration host).paths =
      (((retentionLimits configuration).planned host.now files).takeWhile
        (canRemove host.remove)).map FinalizedFile.path := by
  rw [applyRetention, h]
  exact applyLimits_paths (finalizedFiles_unmarked h)

theorem applyRetention_error {error : LogError}
    (h : finalizedFiles attempt host = .error error) :
    (applyRetention attempt configuration host).paths = [] := by
  rw [applyRetention, h]

end Applied

end Susm.Supervisor
