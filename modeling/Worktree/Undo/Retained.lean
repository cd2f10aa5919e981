import Worktree.Operation.Commit
import Worktree.Undo.Receipt
/-
Committing while retaining undo evidence: the receipt is written after the
revalidation and before the first change, and the backups move into the state
directory once the commit is finished.
-/

namespace Worktree

open CrashLogic

namespace Commit

section

variable {T : Type} (crates : Crates T) (transaction : PreparedWorktreeTransaction)

def prepared (retention : UndoRetention) : Journaled StoredReceipt := do
  match ← ExceptT.lift (StateT.lift (Undo.prepareRetention crates transaction retention).run) with
  | .ok receipt => return receipt
  | .error error => do
      finishWithoutChanges crates transaction
      throw (error.inTransaction transaction.transactionId)

/-- Removes the not-yet-final receipt before its backups are consumed. -/
def discardTransitionalReceipt : Action Unit :=
  orElse (transaction.control.removeUndoReceipt transaction.transactionId) fun error =>
    ((WorktreeError.withSource .undoFailed .rollback
      "failed to discard the transitional undo receipt" error.message).inTransaction
      transaction.transactionId).requiringRecovery

def cleanupStage (path : StagedPath) (index : Nat) : Action Unit :=
  match path.stageName with
  | none => return ()
  | some stage => do
      let _ ← orElse (path.access.removeArtifact stage) fun error =>
        (((WorktreeError.withSource .io .cleanup
          "failed to remove a retained-commit stage artifact" error.message).atPath
          path.path).atFile index).requiringRecovery

/-- Removes stage artifacts only; backups move to the state directory next. -/
def cleanupStages : Action Unit :=
  transaction.paths.zipIdx.forM fun (path, index) => cleanupStage path index

def retainBackup (path : StagedPath) (index : Nat) : Action Unit :=
  match path.backupName, path.backup with
  | some name, some expected =>
      orElse (transaction.control.retainBackupFrom crates.sha256 path.access name expected
          transaction.options.limits.maxSourceBytesPerFile)
        fun error => ((((WorktreeError.withSource .recoveryRequired .cleanup
          "failed to move retained backup into the state directory" error.message).atPath
          path.path).atFile index).inTransaction transaction.transactionId).requiringRecovery
  | _, _ => return ()

/-- Moves exact rollback evidence into the state directory; the journal remains
until every move is complete. -/
def retainBackups : Action Unit :=
  transaction.paths.zipIdx.forM fun (path, index) => retainBackup crates transaction path index

def finishRetained : Journaled Unit := do
  appendFinishedCommit crates
  beside (cleanupStages transaction)
  beside (retainBackups crates transaction)
  beside (removeJournal transaction "retained commit succeeded but journal cleanup failed")

def commitRetainedJournaled (retention : UndoRetention) : Journaled RetainedApplyReport := do
  verified crates transaction
  let receipt ← prepared crates transaction retention
  commitAll crates transaction (discardTransitionalReceipt transaction)
  finishRetained crates transaction
  return ⟨applyReport transaction, receipt.publicReceipt⟩

end

end Commit

/-- Commits while retaining exact undo evidence. -/
def PreparedWorktreeTransaction.commitRetained {T : Type} (crates : Crates T)
    (transaction : PreparedWorktreeTransaction) (retention : UndoRetention) :
    Action RetainedApplyReport :=
  transaction.consume (Commit.commitRetainedJournaled crates transaction retention)

end Worktree
