import Worktree.Error
/-
Hard resource ceilings and the runtime policy of a worktree.
-/

namespace Worktree

def u32Max : Nat := 0xFFFFFFFF

def u64Max : Nat := 0xFFFFFFFFFFFFFFFF

def toU32 (value : Nat) : Option Nat :=
  if value ≤ u32Max then some value else none

def saturatingAdd (left right : Nat) : Nat :=
  min (left + right) u64Max

def checkedAdd (left right : Nat) : Option Nat :=
  if left + right ≤ u64Max then some (left + right) else none

def absoluteMaxWorkers : Nat := 16

def absoluteMaxJournalBytes : Nat := 16 * 1024 * 1024

def absoluteMaxUndoReceipts : Nat := 1024

def absoluteMaxUndoBytes : Nat := 2 * 1024 * 1024 * 1024

structure WorktreeLimits where
  maxFiles : Nat
  maxEditsPerFile : Nat
  maxSourceBytesPerFile : Nat
  maxOutputBytesPerFile : Nat
  maxTotalSourceBytes : Nat
  maxTotalOutputBytes : Nat
  maxTotalArtifactBytes : Nat
  maxJournalBytes : Nat
  maxUndoReceipts : Nat
  maxTotalUndoBytes : Nat
  maxOperationBytes : Nat
  maxExtensionBytes : Nat
  maxExtensionNodes : Nat
  maxExtensionDepth : Nat
  maxEvidenceEntries : Nat
  maxEvidenceTextBytes : Nat
  maxCodeBytes : Nat
  maxWorkers : Nat
  deriving DecidableEq, Repr

namespace WorktreeLimits

def default : WorktreeLimits :=
  { maxFiles := 64
    maxEditsPerFile := 2000
    maxSourceBytesPerFile := 16 * 1024 * 1024
    maxOutputBytesPerFile := 64 * 1024 * 1024
    maxTotalSourceBytes := 128 * 1024 * 1024
    maxTotalOutputBytes := 256 * 1024 * 1024
    maxTotalArtifactBytes := 384 * 1024 * 1024
    maxJournalBytes := 1024 * 1024
    maxUndoReceipts := 32
    maxTotalUndoBytes := 384 * 1024 * 1024
    maxOperationBytes := 4096
    maxExtensionBytes := 256 * 1024
    maxExtensionNodes := 4096
    maxExtensionDepth := 32
    maxEvidenceEntries := 10000
    maxEvidenceTextBytes := 8 * 1024 * 1024
    maxCodeBytes := 256
    maxWorkers := 16 }

def invalid (message : String) : WorktreeError :=
  .new .invalidOptions .validate message

def named (limits : WorktreeLimits) : List (String × Nat) :=
  [("max_files", limits.maxFiles),
    ("max_edits_per_file", limits.maxEditsPerFile),
    ("max_source_bytes_per_file", limits.maxSourceBytesPerFile),
    ("max_output_bytes_per_file", limits.maxOutputBytesPerFile),
    ("max_total_source_bytes", limits.maxTotalSourceBytes),
    ("max_total_output_bytes", limits.maxTotalOutputBytes),
    ("max_total_artifact_bytes", limits.maxTotalArtifactBytes),
    ("max_journal_bytes", limits.maxJournalBytes),
    ("max_undo_receipts", limits.maxUndoReceipts),
    ("max_total_undo_bytes", limits.maxTotalUndoBytes),
    ("max_operation_bytes", limits.maxOperationBytes),
    ("max_extension_bytes", limits.maxExtensionBytes),
    ("max_extension_nodes", limits.maxExtensionNodes),
    ("max_extension_depth", limits.maxExtensionDepth),
    ("max_evidence_entries", limits.maxEvidenceEntries),
    ("max_evidence_text_bytes", limits.maxEvidenceTextBytes),
    ("max_code_bytes", limits.maxCodeBytes),
    ("max_workers", limits.maxWorkers)]

/-- Validates that every limit is nonzero and internally consistent. -/
def validate (limits : WorktreeLimits) : Except WorktreeError Unit := do
  match limits.named.find? (fun entry => entry.2 = 0) with
  | some (name, _) => throw (invalid (name ++ " must be nonzero"))
  | none => pure ()
  if limits.maxWorkers > absoluteMaxWorkers then
    throw (invalid ("max_workers may not exceed " ++ toString absoluteMaxWorkers))
  if limits.maxJournalBytes > absoluteMaxJournalBytes then
    throw (invalid ("max_journal_bytes may not exceed " ++ toString absoluteMaxJournalBytes))
  if limits.maxUndoReceipts > absoluteMaxUndoReceipts then
    throw (invalid ("max_undo_receipts may not exceed " ++ toString absoluteMaxUndoReceipts))
  if limits.maxTotalUndoBytes > absoluteMaxUndoBytes then
    throw (invalid ("max_total_undo_bytes may not exceed " ++ toString absoluteMaxUndoBytes))
  if limits.maxTotalSourceBytes < limits.maxSourceBytesPerFile then
    throw (invalid "max_total_source_bytes must cover one maximum-size source")
  if limits.maxTotalOutputBytes < limits.maxOutputBytesPerFile then
    throw (invalid "max_total_output_bytes must cover one maximum-size output")
  match checkedAdd limits.maxTotalSourceBytes limits.maxTotalOutputBytes with
  | none => throw (invalid "source and output transaction limits overflow")
  | some required =>
      if limits.maxTotalArtifactBytes < required then
        throw (invalid "max_total_artifact_bytes must cover total source plus output bytes")

/-- Limits that are valid give every journal room, within a fixed bound. -/
theorem validate_journal {limits : WorktreeLimits}
    (valid : limits.validate = .ok ()) :
    limits.maxJournalBytes ≠ 0 ∧ limits.maxJournalBytes ≤ absoluteMaxJournalBytes := by
  unfold WorktreeLimits.validate at valid
  cases zero : limits.named.find? fun entry => entry.2 = 0 with
  | some entry =>
      rw [zero] at valid
      cases valid
  | none =>
      have positive := List.find?_eq_none.mp zero ("max_journal_bytes", limits.maxJournalBytes)
        (by simp [named])
      rw [zero] at valid
      by_cases workers : limits.maxWorkers > absoluteMaxWorkers
      · simp only [if_pos workers] at valid
        cases valid
      · by_cases journal : limits.maxJournalBytes > absoluteMaxJournalBytes
        · simp only [if_neg workers, if_pos journal] at valid
          cases valid
        · exact ⟨by simpa using positive, Nat.le_of_not_lt journal⟩
end WorktreeLimits

def defaultAutoWorkers : Nat := 4

/-- Zero parallelism selects bounded automatic parallelism. -/
structure WorktreeOptions where
  limits : WorktreeLimits
  parallelism : Nat
  deriving DecidableEq, Repr

namespace WorktreeOptions

def validate (options : WorktreeOptions) : Except WorktreeError Unit := do
  options.limits.validate
  if options.parallelism > options.limits.maxWorkers then
    throw (WorktreeLimits.invalid ("parallelism " ++ toString options.parallelism ++
      " exceeds max_workers " ++ toString options.limits.maxWorkers))

theorem validate_journal {options : WorktreeOptions} (valid : options.validate = .ok ()) :
    options.limits.maxJournalBytes ≠ 0 ∧ options.limits.maxJournalBytes < u64Max := by
  obtain ⟨_, limits, _⟩ := bind_ok_iff.mp valid
  obtain ⟨positive, bounded⟩ := WorktreeLimits.validate_journal limits
  have small : absoluteMaxJournalBytes < u64Max := by decide
  exact ⟨positive, by omega⟩

/-- Resolves the bounded worker count for a known number of files. -/
def workerCount (options : WorktreeOptions) (available fileCount : Nat) : Nat :=
  if fileCount = 0 then 0
  else
    let requested :=
      if options.parallelism = 0 then min available defaultAutoWorkers
      else options.parallelism
    min (min (max requested 1) options.limits.maxWorkers) fileCount

/-- Recovery reads whatever either side of a transition may have written. -/
def maxBytes (options : WorktreeOptions) : Nat :=
  max options.limits.maxSourceBytesPerFile options.limits.maxOutputBytesPerFile

end WorktreeOptions

end Worktree
