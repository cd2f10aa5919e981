import Worktree.Transaction.Prepare
/-
Committing an edit transaction file by file, putting the backups back when a file
fails, and aborting.
-/

namespace Worktree

open CrashLogic

namespace Edit

structure ApplyReport where
  transactionId : String
  operation : String
  files : List FileChange
  deriving DecidableEq

inductive CommitFailureState
  | unchanged
  | changed
  | ambiguous
  deriving DecidableEq, Repr

/-- One file of a commit; its failure comes with what became of the file. -/
abbrev FileStep :=
  ExceptT (WorktreeError × CommitFailureState) (StateT JournalWriter (Task FsOp))

def FileStep.action {α : Type} (action : Action α) (state : CommitFailureState) : FileStep α :=
  ExceptT.adapt (fun error => (error, state)) (beside action)

section

variable {T : Type} (crates : Crates T) (transaction : PreparedTransaction)

def appendStep (record : JournalRecord) (state : CommitFailureState)
    (wrap : JournalError → WorktreeError) : FileStep Unit :=
  ExceptT.adapt (fun error => (error, state)) (appendOr crates record wrap)

def removeJournal (message : String) : Action Unit :=
  orElse transaction.control.removeJournal fun error =>
    (WorktreeError.withSource .recoveryRequired .cleanup message error.message).requiringRecovery

/-! ### Rolling back -/

def recoveryError (error : WorktreeError) : WorktreeError :=
  (WorktreeError.new .rollbackFailed .rollback error.display).requiringRecovery

def rollbackOne (file : StagedFile) : Journaled Unit := do
  beside (ExceptT.adapt recoveryError (verifyTarget crates.sha256 file.access file.newHash none
    transaction.options.limits.maxOutputBytesPerFile file.originalIndex .rollback))
  beside (verifyArtifact crates.sha256 file.access file.backupName file.oldHash
    transaction.options.limits.maxSourceBytesPerFile file.originalIndex .rollback)
  appendOr crates (.rollbackIntent file.stableIndex) fun error =>
    (journalError .rollback "failed to synchronize rollback intent" error).requiringRecovery
  beside (orElse (do file.access.renameFrom file.backupName; file.access.syncParent) fun error =>
    (fsError .rollback file.access.path file.originalIndex "failed to restore a backup"
      error).requiringRecovery)
  appendOr crates (.rolledBack file.stableIndex) fun error =>
    (journalError .rollback "failed to record restored target" error).requiringRecovery

/-- Restores the committed files, the latest first. -/
def rollbackCommitted (committed : List StagedFile) : Journaled Unit := do
  committed.reverse.forM (rollbackOne crates transaction)
  appendOr crates (.finished .rolledBack) fun error =>
    (journalError .rollback "failed to record completed rollback" error).requiringRecovery
  let _ ← beside (cleanupStaged transaction.files)
  beside (removeJournal transaction "rollback succeeded but journal cleanup failed")

/-! ### One file -/

def verifyAllBackups : Action Unit :=
  transaction.files.forM fun file =>
    verifyArtifact crates.sha256 file.access file.backupName file.oldHash
      transaction.options.limits.maxSourceBytesPerFile file.originalIndex .commit

def verifySource (file : StagedFile) : Action Unit :=
  verifyTarget crates.sha256 file.access file.oldHash (some file.identity)
    transaction.options.limits.maxSourceBytesPerFile file.originalIndex .commit

def classifyFailedRename (file : StagedFile) : Task FsOp CommitFailureState := do
  if (← (verifyTarget crates.sha256 file.access file.newHash none
      transaction.options.limits.maxOutputBytesPerFile file.originalIndex .commit).run).isOk then
    return .changed
  else if (← (verifySource crates transaction file).run).isOk then return .unchanged
  else return .ambiguous

/-- A failed rename is classified by looking at the target again. -/
def renamed (file : StagedFile) : FileStep Unit :=
  ExceptT.mk do
    match ← StateT.lift (file.access.renameFrom file.stageName).run with
    | .ok () => return .ok ()
    | .error source =>
        let state ← StateT.lift (classifyFailedRename crates transaction file)
        let error := fsError .commit file.access.path file.originalIndex
          "failed to replace target with staged output" source
        return .error (if state = .ambiguous then error.requiringRecovery else error, state)

def commitOne (file : StagedFile) : FileStep Unit := do
  FileStep.action (do
      verifySource crates transaction file
      verifyArtifact crates.sha256 file.access file.stageName file.newHash
        transaction.options.limits.maxOutputBytesPerFile file.originalIndex .commit) .unchanged
  appendStep crates (.commitIntent file.stableIndex) .unchanged fun error =>
    (journalError .commit "failed to synchronize commit intent" error).requiringRecovery
  renamed crates transaction file
  FileStep.action (orElse file.access.syncParent fun error =>
      (((WorktreeError.withSource .durabilityFailed .commit
        "target changed but its parent directory did not synchronize" error.message).atPath
        file.access.path).atFile file.originalIndex).requiringRecovery) .changed
  appendStep crates (.committed file.stableIndex) .changed fun error =>
    (journalError .commit "target changed but its completion record did not synchronize"
      error).requiringRecovery

/-! ### All files -/

/-- How the files of a commit may fail: with a file nobody can classify, or with
those that changed until then. -/
inductive Failure
  | ambiguous (error : WorktreeError)
  | changed (error : WorktreeError) (files : List StagedFile)

def failure (committed : List StagedFile) (file : StagedFile) :
    WorktreeError × CommitFailureState → Failure
  | (error, .changed) => .changed error (committed ++ [file])
  | (error, .unchanged) => .changed error committed
  | (error, .ambiguous) => .ambiguous error

/-- Commits the files in order; `committed` are those before them. -/
def commitFiles (committed : List StagedFile) :
    List StagedFile → ExceptT Failure (StateT JournalWriter (Task FsOp)) Unit
  | [] => return ()
  | file :: rest => do
      ExceptT.adapt (failure committed file) (commitOne crates transaction file)
      commitFiles (committed ++ [file]) rest

/-- The commit is undone, and fails with what failed first. -/
def undone (committed : List StagedFile) (error : WorktreeError) : Journaled Unit := do
  rollbackCommitted crates transaction committed
  throw error

def commitAll : Journaled Unit := do
  match ← ExceptT.lift (commitFiles crates transaction [] transaction.files).run with
  | .ok () => return ()
  | .error (.ambiguous error) => throw error
  | .error (.changed error committed) => undone crates transaction committed error

def verified : Journaled Unit := do
  match ← ExceptT.lift (StateT.lift (verifyAllBackups crates transaction).run) with
  | .ok () => return ()
  | .error error => undone crates transaction [] error

def commitJournaled : Journaled ApplyReport := do
  verified crates transaction
  commitAll crates transaction
  appendOr crates (.finished .committed) fun error =>
    (journalError .commit "all targets changed but final journal sync failed"
      error).requiringRecovery
  let _ ← beside (cleanupStaged transaction.files)
  beside (removeJournal transaction "commit succeeded but journal cleanup failed")
  return ⟨transaction.transactionId, transaction.operation, transaction.files.map (·.change)⟩

def abortJournaled : Journaled AbortReport := do
  appendOr crates (.finished .aborted) fun error =>
    (journalError .cleanup "failed to record explicit abort" error).requiringRecovery
  let removed ← beside (cleanupStaged transaction.files)
  beside (removeJournal transaction "abort succeeded but journal cleanup failed")
  return ⟨transaction.transactionId, transaction.files.length, removed⟩

end

namespace PreparedTransaction

variable {T : Type} (crates : Crates T) (transaction : PreparedTransaction)

/-- The transaction is used up: its journal is dropped and its lock released. -/
def consume {α : Type} (session : Journaled α) : Action α :=
  holding transaction.lock (ExceptT.mk do
    return (← session.run.run transaction.journal).1)

/-- Revalidates and commits every staged target in deterministic path order. -/
def commit : Action ApplyReport :=
  transaction.consume (commitJournaled crates transaction)

/-- Discards a prepared transaction without changing a target. -/
def abort : Action AbortReport :=
  transaction.consume (abortJournaled crates transaction)

end PreparedTransaction

end Edit

end Worktree
