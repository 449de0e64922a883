import Susm.Diagnostics.Segments
import Susm.Supervisor.AttemptWorld
import Susm.Supervisor.LogRetention

/-!
# Retention of diagnostics

The diagnostics of a component lie in one directory and have fixed limits.
Otherwise they are removed the way the log segments of a workload are.
-/

namespace Susm.Diagnostics

open Susm.Foundation
open Susm.Foundation.Retention

theorem finalizedFiles_unmarked (entries : List (Option DirectoryEntry)) :
    ∀ file ∈ finalizedFiles entries, file.removed = false := by
  intro file hmem
  obtain ⟨entry, -, hentry⟩ := List.mem_filterMap.mp hmem
  unfold finalizedFile at hentry
  split at hentry
  · cases hentry
  · simp only [Option.bind_eq_bind, Option.bind_eq_some_iff] at hentry
    obtain ⟨metadata, -, modified, -, heq⟩ := hentry
    cases heq
    rfl

/--
Both implementations remove exactly the expired files and the shortest
oldest-first part of the others, and nothing when there are no limits.
-/
theorem retention_exact (Error : Type) :
    (∀ (attempt : Supervisor.LogPath)
      (configuration : Protocol.ExecutionConfiguration)
      (host : Supervisor.RetentionHost)
      (files : List (FinalizedFile Supervisor.LogPath)),
      Supervisor.finalizedFiles attempt host = .ok files →
      (∀ path, host.remove path = .ok ()) → sumBytes files < 2 ^ 64 →
      let removals :=
        Supervisor.applyRetention attempt configuration host
      removals.result = .ok () ∧
        (∃ excess kept,
          RemovesExactly (Supervisor.retentionLimits configuration) host.now
            files removals.paths excess kept) ∧
        (configuration.retentionAgeUnlimited →
          configuration.retentionSizeUnlimited → removals.paths = [])) ∧
    ∀ (remove : String → Except Error Unit) (now : Int)
      (entries : List (Option DirectoryEntry)),
      (∀ path, remove path = .ok ()) →
      sumBytes (finalizedFiles entries) < 2 ^ 64 →
      let removals := applyRetention remove now (.ok entries)
      removals.result = .ok () ∧
        ∃ excess kept,
          RemovesExactly retentionLimits now (finalizedFiles entries)
            removals.paths excess kept := by
  constructor
  · intro attempt configuration host files hfiles noErrors bounded
    dsimp only
    rw [Supervisor.applyRetention, hfiles]
    refine ⟨applyLimits_result_of_ok noErrors, ?_, ?_⟩
    · exact applyLimits_exact noErrors
        (Supervisor.finalizedFiles_unmarked hfiles) bounded
    · intro hage hsize
      rw [applyLimits_paths_of_ok noErrors
        (Supervisor.finalizedFiles_unmarked hfiles)]
      simp [Limits.planned, Limits.expired, Limits.oversize,
        Supervisor.retentionLimits, Limits.expires, hage, hsize]
  · intro remove now entries noErrors bounded
    exact ⟨applyLimits_result_of_ok noErrors,
      applyLimits_exact noErrors (finalizedFiles_unmarked entries) bounded⟩

/-- Three segments of one attempt and a limit of ten bytes. -/
def segmentHost : Supervisor.RetentionHost where
  readTree _ := .ok [.directory "execution" [.directory "attempt-000001"
    [.file "a.susm-journal" 0 4, .file "b.susm-journal.zst" 7 4,
      .file "c.susm-journal.open" 8 8]]]
  now := 9
  remove _ := .ok ()

def limitedConfiguration : Protocol.ExecutionConfiguration :=
  { Supervisor.toolConfiguration with
    retentionSize := 10
    retentionSizeUnlimited := false }

theorem retention_exact_segments :
    (∃ excess kept,
      RemovesExactly (Supervisor.retentionLimits limitedConfiguration) 9
        [⟨["tool", "execution", "attempt-000001", "a.susm-journal"], 0, 4,
            false⟩,
          ⟨["tool", "execution", "attempt-000001", "b.susm-journal.zst"], 7,
            4, false⟩,
          ⟨["tool", "execution", "attempt-000001", "c.susm-journal.open"], 8,
            8, false⟩]
        (Supervisor.applyRetention ["tool", "execution", "attempt-000001"]
          limitedConfiguration segmentHost).paths excess kept) ∧
    ∃ excess kept,
      RemovesExactly retentionLimits 0
        (finalizedFiles [some ⟨"host.jsonl", some ⟨some 0, 4⟩⟩])
        (applyRetention (fun _ => (.ok () : Except Unit Unit)) 0
          (.ok [some ⟨"host.jsonl", some ⟨some 0, 4⟩⟩])).paths excess kept :=
  ⟨((retention_exact Unit).1 _ limitedConfiguration segmentHost _
      (by decide +kernel) (fun _ => rfl) (by decide)).2.1,
    ((retention_exact Unit).2 (fun _ => .ok ()) 0 _ (fun _ => rfl)
      (by decide +kernel)).2⟩

end Susm.Diagnostics
