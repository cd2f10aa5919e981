import Worktree.Undo.Receipt
/-
Rolling one retained commit back: everything is compared with the receipt before
the first change, then the paths are restored from the last to the first behind
an undo journal, and the receipt is consumed.
-/

namespace Worktree

open CrashLogic

namespace Undo

/-! ### Errors -/

def conflict (path : ReceiptPath) (message : String) : WorktreeError :=
  ((WorktreeError.new .undoConflict .rollback message).atPath path.path).atFile path.index

def verifyIo (path : ReceiptPath) (message : String) (error : IoError) : WorktreeError :=
  ((WorktreeError.withSource .undoFailed .rollback message error.message).atPath
    path.path).atFile path.index

def restoreError (path : ReceiptPath) (message : String) (error : IoError) : WorktreeError :=
  (verifyIo path message error).requiringRecovery

def foreign (path : ReceiptPath) (message : String) : WorktreeError :=
  (conflict path message).requiringRecovery

def receiptLogic (path : ReceiptPath) (message : String) : WorktreeError :=
  (((WorktreeError.new .undoCorrupt .rollback message).atPath path.path).atFile
    path.index).requiringRecovery

def journalError (message : String) (source : JournalError) : WorktreeError :=
  (WorktreeError.withSource .journalCorrupt .rollback message source).requiringRecovery

def cleanupError (error : IoError) : WorktreeError :=
  (WorktreeError.withSource .undoFailed .cleanup
    "undo rollback succeeded but retained-state cleanup failed" error.message).requiringRecovery

/-- Complete before-state evidence a finished restore must present. -/
def restoredEvidence (path : ReceiptPath) : Except WorktreeError SlotEvidence :=
  match path.before with
  | .absent => .ok .absent
  | .present before => do
      let backup ← fromOption path.backup (receiptLogic path "retained path lacks backup evidence")
      return .present { before with identity := backup.identity }

def consumedArtifacts (receipt : StoredReceipt) : Nat :=
  (receipt.paths.filter fun path => path.backupName.isSome).length

section

variable {T : Type} (crates : Crates T)

/-! ### Verification -/

def verifyBackup (control : ControlDir) (path : ReceiptPath) (options : WorktreeOptions) :
    Action Unit :=
  match path.backupName, path.backup with
  | some name, some expected => do
      let actual ← orElse (control.backupEvidence crates.sha256 name
          options.limits.maxSourceBytesPerFile)
        fun error =>
          if error.kind = .notFound then conflict path "retained undo artifact is missing"
          else verifyIo path "failed to verify a retained undo artifact" error
      if actual = expected then return ()
      else throw (conflict path "retained undo artifact does not match its receipt evidence")
  | _, _ => return ()

def verifyReceiptPath (control : ControlDir) (root : FsRoot) (options : WorktreeOptions)
    (path : ReceiptPath) : Action TargetAccess := do
  let access ← orElse (root.openTarget crates path.path)
    (verifyIo path "failed to reopen a retained path")
  let actual ← orElse (access.slotEvidence crates.sha256 options.maxBytes)
    (verifyIo path "failed to inspect a retained path")
  if actual ≠ path.after then
    throw (conflict path "retained path no longer matches its exact committed state")
  verifyBackup crates control path options
  return access

/-- Compares every retained path and artifact with the committed evidence. -/
def verifyReceiptState (control : ControlDir) (root : FsRoot) (options : WorktreeOptions) :
    List ReceiptPath → Action (List TargetAccess)
  | [] => return []
  | path :: rest => do
      let access ← verifyReceiptPath crates control root options path
      return access :: (← verifyReceiptState control root options rest)

/-! ### One path -/

def verifyRestored (access : TargetAccess) (path : ReceiptPath) (options : WorktreeOptions) :
    Action Unit := do
  let restored ← liftWorktree (restoredEvidence path)
  let _ ← orElse (access.verifySlot crates.sha256 restored
      options.limits.maxSourceBytesPerFile)
    (restoreError path "restored path failed exact verification")

def restorePresent (control : ControlDir) (access : TargetAccess) (path : ReceiptPath)
    (options : WorktreeOptions) : Action Unit := do
  let backup ← liftWorktree (fromOption path.backupName
    (receiptLogic path "retained path lacks its backup name"))
  let actual ← orElse (access.slotEvidence crates.sha256 options.maxBytes)
    (restoreError path "failed to inspect a retained restore target")
  if actual = .absent then
    orElse (control.installAbsentTargetFromBackup access backup)
      (restoreError path "failed to reinstall the retained backup")
  else if actual = path.after then
    orElse (control.replaceTargetFromBackup access backup)
      (restoreError path "failed to restore the retained backup")
  else throw (foreign path "refusing to overwrite a diverged retained path")

/-- Restores one path from the exact committed state to its before state. -/
def restorePath (control : ControlDir) (access : TargetAccess) (path : ReceiptPath)
    (options : WorktreeOptions) : Action Unit := do
  match path.before, path.after with
  | .absent, .present after =>
      orElse (access.removeExact crates.sha256 after options.limits.maxOutputBytesPerFile)
        (restoreError path "failed to remove a retained create")
  | .present _, _ => restorePresent crates control access path options
  | .absent, .absent => throw (receiptLogic path "retained path has an empty transition")
  orElse access.syncParent (restoreError path "retained restore did not synchronize")
  verifyRestored crates access path options

/-! ### The whole receipt -/

def openJournal (control : ControlDir) (options : WorktreeOptions) : Action Writer := do
  let file ← orElse control.createUndoJournal fun error =>
    .withSource .undoFailed .rollback "failed to create the exclusive undo journal" error.message
  orElse control.sync fun error =>
    (WorktreeError.withSource .durabilityFailed .rollback
      "failed to synchronize the undo journal directory" error.message).requiringRecovery
  orJournal (Writer.new file options.limits.maxJournalBytes)
    (journalError "invalid new undo journal")

def appendHeader (receipt : StoredReceipt) (transactionId : String) : Journaled Unit := do
  let pathCount ← beside (liftWorktree (fromOption (toU32 receipt.paths.length)
    (WorktreeError.new .undoCorrupt .rollback
      "retained path count does not fit the journal contract").requiringRecovery))
  appendOr crates (.header transactionId receipt.checksum.display receipt.id 0 pathCount)
    (journalError "failed to synchronize the undo journal header")

def append (record : Record) : Journaled Unit :=
  appendOr crates record (journalError "failed to synchronize an undo journal record")

def rollbackPath (control : ControlDir) (options : WorktreeOptions) (transactionId : String)
    (path : ReceiptPath) (access : TargetAccess) : Journaled Unit := do
  append crates (.rollbackIntent path.index)
  beside (ExceptT.adapt (fun error => error.inTransaction transactionId)
    (restorePath crates control access path options))
  append crates (.rolledBack path.index)

def consumeReceipt (control : ControlDir) (id : String) : Action Unit := do
  orElse (control.removeUndoReceipt id) cleanupError
  orElse control.removeUndoJournal cleanupError

def rollbackJournaled (control : ControlDir) (receipt : StoredReceipt) (options : WorktreeOptions)
    (transactionId : String) (accesses : List TargetAccess) : Journaled Unit := do
  appendHeader crates receipt transactionId
  (receipt.paths.zip accesses).reverse.forM fun (path, access) =>
    rollbackPath crates control options transactionId path access
  append crates (.finished .rolledBack)
  beside (consumeReceipt control receipt.id)

/-- Exactly restores one retained commit behind complete evidence verification. -/
def rollback (control : ControlDir) (root : FsRoot) (receipt : StoredReceipt)
    (options : WorktreeOptions) : Action UndoRollbackReport := do
  let accesses ← verifyReceiptState crates control root options receipt.paths
  let rollbackTransactionId ← randomId
  let writer ← openJournal control options
  let (result, _) ← ExceptT.lift ((rollbackJournaled crates control receipt options
    rollbackTransactionId accesses).run.run writer)
  liftWorktree result
  return { undoId := receipt.id
           rollbackTransactionId
           restoredPaths := receipt.paths.length
           artifactsRemoved := consumedArtifacts receipt }

/-! ### Sessions -/

def sessionIo (error : IoError) : WorktreeError :=
  .withSource .io .lock "failed to open the retained undo store" error.message

def notFound : WorktreeError :=
  .new .undoNotFound .validate "the exact undo receipt does not exist"

/-- Runs a session over the store under the root lock, or answers without one
when there is no state directory. -/
def openSession {α : Type} (root : FsRoot) (closed : Except WorktreeError α)
    (session : ControlDir → Action α) : Action α := do
  match ← orElse (root.openControl false) sessionIo with
  | none => liftWorktree closed
  | some control =>
      let file ← orElse control.openLock sessionIo
      match ← ExceptT.lift (perform (.tryLock file)).run with
      | .ok true => holding file do
          ensureNoPending control
          session control
      | .ok false =>
          throw (.new .rootBusy .lock "another worktree transaction holds the root lock")
      | .error error => throw (sessionIo error)

def receiptsFrom (control : ControlDir) (options : WorktreeOptions) :
    List String → Action (List UndoReceipt)
  | [] => return []
  | id :: rest => do
      let id ← liftWorktree (fromOption (UndoId.parse id)
        (WorktreeError.new .undoCorrupt .validate
          "stored undo receipt name is not a valid identifier").requiringRecovery)
      let receipt ← inspect crates control id options
      return receipt.publicReceipt :: (← receiptsFrom control options rest)

def undoReceipts (root : FsRoot) (options : WorktreeOptions) : Action (List UndoReceipt) :=
  openSession root (.ok []) fun control => do
    let ids ← orElse control.undoReceiptIds sessionIo
    receiptsFrom crates control options (ids.mergeSort fun first second => first ≤ second)

def undoUsage (root : FsRoot) (options : WorktreeOptions) : Action UndoStoreUsage :=
  openSession root (.ok ⟨0, 0⟩) fun control => storeUsage crates control options

def undoRollback (root : FsRoot) (options : WorktreeOptions) (id : UndoId) :
    Action UndoRollbackReport :=
  openSession root (.error notFound) fun control => do
    let stored ← inspect crates control id options
    rollback crates control root stored options

def undoDiscard (root : FsRoot) (options : WorktreeOptions) (id : UndoId) : Action Nat :=
  openSession root (.error notFound) fun control => do
    let stored ← inspect crates control id options
    discard crates control stored options

end

end Undo

end Worktree
