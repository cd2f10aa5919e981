import Worktree.Undo.Recovery
/-
Recovering an interrupted operation transaction: the journal says how far it
came, the exact evidence of every path says what happened to it, and whatever
is neither before nor after stops the recovery and stays as it is.
-/

namespace Worktree

open CrashLogic

namespace Recovery

/-! ### Errors -/

def pathRecoveryIo (path : RecoveryPath) (message : String) (error : IoError) : WorktreeError :=
  (((WorktreeError.withSource .recoveryRequired .recover message error.message).atPath
    path.path).atFile path.index).requiringRecovery

def pathRecoveryRequired (path : RecoveryPath) (message : String) : WorktreeError :=
  (((WorktreeError.new .recoveryRequired .recover message).atPath path.path).atFile
    path.index).requiringRecovery

def foreignState (parsed : ParsedJournal) (path : RecoveryPath) (message : String) :
    WorktreeError :=
  (pathRecoveryRequired path message).inTransaction parsed.transactionId

def pathIo (parsed : ParsedJournal) (path : RecoveryPath) (message : String) (error : IoError) :
    WorktreeError :=
  (pathRecoveryIo path message error).inTransaction parsed.transactionId

def corrupt (parsed : ParsedJournal) (path : RecoveryPath) (message : String) : WorktreeError :=
  ((((WorktreeError.new .journalCorrupt .recover message).atPath path.path).atFile
    path.index).inTransaction parsed.transactionId).requiringRecovery

def controlIo (error : IoError) : WorktreeError :=
  (WorktreeError.withSource
    (if error.kind = .invalidData then .journalCorrupt else .recoveryRequired) .recover
    "operation recovery control I/O failed" error.message).requiringRecovery

/-! ### Matching evidence -/

def matchesPresentEvidence (expected : PresentSpec) (actual : PresentEvidence)
    (identity : Option FileIdentity) : Bool :=
  expected.sha256 = actual.sha256 && expected.bytes = actual.bytes &&
    expected.permissions = actual.permissions && identity.all fun identity =>
      identity = actual.identity

def matchesPresent (expected : PresentSpec) (actual : SlotEvidence)
    (identity : Option FileIdentity) : Bool :=
  match actual with
  | .present actual => matchesPresentEvidence expected actual identity
  | .absent => false

def matchesBefore (path : RecoveryPath) (actual : SlotEvidence) : Bool :=
  match path.before with
  | .absent => actual = .absent
  | .present spec =>
      matchesPresent spec actual spec.identity || matchesPresent spec actual path.backupIdentity

def matchesAfter (path : RecoveryPath) (actual : SlotEvidence) : Bool :=
  match path.after with
  | .absent => actual = .absent
  | .present spec => matchesPresent spec actual (path.stageIdentity.or spec.identity)

section

variable {T : Type} (crates : Crates T) (options : WorktreeOptions) (parsed : ParsedJournal)

def currentState (path : RecoveryPath) : Action SlotEvidence :=
  orElse (path.access.slotEvidence crates.sha256 options.maxBytes)
    (pathRecoveryIo path "failed to inspect exact operation target state")

def artifactExistsExact (path : RecoveryPath) (name : String) (spec : PresentSpec)
    (identity : Option FileIdentity) : Action Bool := do
  match ← ExceptT.lift (path.access.artifactEvidence crates.sha256 name options.maxBytes).run with
  | .ok actual =>
      if matchesPresentEvidence spec actual identity then return true
      else throw (foreignState parsed path
        "transaction artifact does not match exact journal evidence")
  | .error error =>
      if error.kind = .notFound then return false
      else throw (pathIo parsed path "failed to inspect operation transaction artifact" error)

def verifyArtifact (path : RecoveryPath) (name : String) (spec : PresentSpec)
    (identity : Option FileIdentity) : Action Unit := do
  if !(← artifactExistsExact crates options parsed path name spec identity) then
    throw (foreignState parsed path "required operation rollback artifact is missing")

/-! ### Cleaning up -/

def removeArtifactIfExact (path : RecoveryPath) (name : String) (spec : PresentSpec)
    (identity : Option FileIdentity) (message : String) : Action Nat := do
  if ← artifactExistsExact crates options parsed path name spec identity then
    let removed ← orElse (path.access.removeArtifact name) (pathIo parsed path message)
    return if removed then 1 else 0
  else return 0

/-- Before its identities are journaled an artifact may be incomplete, and its
name alone binds it to the transaction. -/
def cleanupArtifact (path : RecoveryPath) (name : String) (spec : PresentSpec)
    (identity : Option FileIdentity) (message : String) : Action Nat := do
  if path.staged then
    removeArtifactIfExact crates options parsed path name spec identity message
  else
    let removed ← orElse (path.access.removeArtifact name) (pathIo parsed path message)
    return if removed then 1 else 0

def cleanupStage (path : RecoveryPath) : Action Nat :=
  match path.stageName, path.after.present? with
  | some name, some spec =>
      cleanupArtifact crates options parsed path name spec path.stageIdentity
        "failed to remove operation stage artifact"
  | _, _ => return 0

def cleanupBackup (path : RecoveryPath) : Action Nat :=
  match path.backupName, path.before.present? with
  | some name, some spec =>
      cleanupArtifact crates options parsed path name spec path.backupIdentity
        "failed to remove operation backup artifact"
  | _, _ => return 0

/-- A retained commit keeps its backups as consumable undo evidence. -/
def cleanupArtifacts (keepBackups : Bool) : List RecoveryPath → Action Nat
  | [] => return 0
  | path :: rest => do
      let stages ← cleanupStage crates options parsed path
      let backups ← if keepBackups then pure 0 else cleanupBackup crates options parsed path
      return stages + backups + (← cleanupArtifacts keepBackups rest)

/-! ### Two-link intermediates -/

def linkedCreateIsExact (path : RecoveryPath) : Action Bool :=
  match path.before, path.stageName with
  | .absent, some stage => do
      match ← ExceptT.lift (path.access.sameFileAsArtifact stage).run with
      | .ok true =>
          let evidence ← orElse (path.access.linkedArtifactEvidence crates.sha256 stage
              options.maxBytes)
            (pathIo parsed path "failed to verify linked operation install")
          let spec ← liftWorktree (fromOption path.after.present?
            (corrupt parsed path "linked install has no present after-state"))
          if matchesPresentEvidence spec evidence path.stageIdentity then return true
          else throw (foreignState parsed path
            "linked operation install does not match exact staged evidence")
      | .ok false => return false
      | .error error =>
          if error.kind = .notFound then return false
          else throw (pathRecoveryIo path "failed to inspect linked operation install" error)
  | _, _ => return false

def linkedBackupRestoreIsExact (path : RecoveryPath) : Action Bool :=
  match path.before, path.after, path.backupName with
  | .present spec, .absent, some backup => do
      match ← ExceptT.lift (path.access.sameFileAsArtifact backup).run with
      | .ok true =>
          let evidence ← orElse (path.access.linkedArtifactEvidence crates.sha256 backup
              options.maxBytes)
            (pathIo parsed path "failed to verify linked operation backup restore")
          if matchesPresentEvidence spec evidence path.backupIdentity then return true
          else throw (foreignState parsed path
            "linked operation backup restore does not match exact before evidence")
      | .ok false => return false
      | .error error =>
          if error.kind = .notFound then return false
          else throw (pathRecoveryIo path
            "failed to inspect linked operation backup restore" error)
  | _, _, _ => return false

def rollbackLinkedCreate (path : RecoveryPath) : Action Unit := do
  let stage ← liftWorktree (fromOption path.stageName
    (pathRecoveryRequired path "linked operation install has no staged artifact name"))
  orElse (path.access.rollbackLinkedInstall stage)
    (pathRecoveryIo path "failed to reverse linked operation install")
  if (← currentState crates options path) ≠ .absent then
    throw (pathRecoveryRequired path
      "linked operation install rollback did not restore absence")

def finishLinkedBackupRestore (path : RecoveryPath) : Action Unit := do
  let backup ← liftWorktree (fromOption path.backupName
    (pathRecoveryRequired path "linked operation backup restore has no artifact name"))
  let identity ← liftWorktree (fromOption path.backupIdentity
    (pathRecoveryRequired path "linked operation backup restore has no durable identity"))
  orElse (path.access.finishLinkedInstall backup identity)
    (pathRecoveryIo path "failed to finish linked operation backup restore")
  let before ← liftWorktree (fromOption path.before.present?
    (pathRecoveryRequired path "linked operation backup restore has no present before-state"))
  if !matchesPresent before (← currentState crates options path) (some identity) then
    throw (pathRecoveryRequired path
      "linked operation backup restore failed exact verification")

/-! ### Records of the recovery -/

def appendRecord (record : Record) : Journaled Unit :=
  appendOr crates record fun error =>
    ((WorktreeError.withSource .recoveryRequired .recover
      "failed to synchronize an operation recovery record" error).inTransaction
      parsed.transactionId).requiringRecovery

def appendFinished (outcome : FinishOutcome) : Journaled Unit :=
  appendRecord crates parsed (.finished outcome)

def appendRollbackIntent (path : RecoveryPath) : Journaled Unit :=
  if path.index ∈ parsed.rollbackIntents then return ()
  else appendRecord crates parsed (.rollbackIntent path.index)

/-! ### One path -/

def restoreCreated (path : RecoveryPath) (actual : SlotEvidence) : Action Unit := do
  let present ← liftWorktree (fromOption actual.present?
    (foreignState parsed path "create target vanished during rollback"))
  orElse (path.access.removeExact crates.sha256 present options.maxBytes)
    (pathIo parsed path "failed to remove created path")
  orElse path.access.syncParent
    (pathIo parsed path "created-path rollback did not synchronize")

def restoreBackup (path : RecoveryPath) (before : PresentSpec) (actual : SlotEvidence) :
    Action Unit := do
  let backup ← liftWorktree (fromOption path.backupName
    (corrupt parsed path "present before-state lacks backup name"))
  verifyArtifact crates options parsed path backup before path.backupIdentity
  if actual = .absent then
    orElse (path.access.installAbsentFrom backup)
      (pathIo parsed path "failed to reinstall operation backup")
  else
    orElse (path.access.replaceFrom backup)
      (pathIo parsed path "failed to restore operation backup")
  orElse path.access.syncParent
    (pathIo parsed path "restored operation backup did not synchronize")
  if !matchesPresent before (← currentState crates options path) path.backupIdentity then
    throw (foreignState parsed path
      "restored operation backup failed exact evidence verification")

def restoreBefore (path : RecoveryPath) (actual : SlotEvidence) : Action Unit :=
  match path.before, path.after with
  | .absent, .present _ => restoreCreated crates options parsed path actual
  | .present before, _ => restoreBackup crates options parsed path before actual
  | .absent, .absent => throw (corrupt parsed path "invalid absent-to-absent transition")

def finishLinkedBackupPath (path : RecoveryPath) : Journaled Unit := do
  if path.index ∈ parsed.rolledBack then
    throw (foreignState parsed path
      "a journaled rolled-back path is still a linked backup restore")
  if path.index ∉ parsed.rollbackIntents then
    throw (foreignState parsed path
      "linked backup restore lacks a synchronized operation rollback intent")
  beside (finishLinkedBackupRestore crates options path)
  appendRecord crates parsed (.rolledBack path.index)

def rollbackLinkedPath (path : RecoveryPath) : Journaled Unit := do
  if path.index ∈ parsed.rolledBack then
    throw (foreignState parsed path "a journaled rolled-back path is still a linked install")
  if path.index ∉ parsed.commitIntents then
    throw (foreignState parsed path
      "linked install lacks a synchronized operation commit intent")
  appendRollbackIntent crates parsed path
  beside (rollbackLinkedCreate crates options path)
  appendRecord crates parsed (.rolledBack path.index)

def attestUnchangedIntent (path : RecoveryPath) : Journaled Unit := do
  if path.index ∈ parsed.commitIntents then
    beside (orElse path.access.syncParent
      (pathIo parsed path "before-state directory did not synchronize during recovery"))
    appendRollbackIntent crates parsed path
    appendRecord crates parsed (.rolledBack path.index)

/-- A path found in one piece: already restored, never changed, or changed. -/
def rollbackSettled (path : RecoveryPath) (actual : SlotEvidence) : Journaled Unit := do
  if path.index ∈ parsed.rolledBack then
    if matchesBefore path actual then return ()
    else throw (foreignState parsed path
      "a journaled rolled-back path no longer matches its before state")
  else if matchesBefore path actual then
    attestUnchangedIntent crates parsed path
  else if path.index ∉ parsed.commitIntents then
    throw (foreignState parsed path
      "path changed without a synchronized operation commit intent")
  else if !matchesAfter path actual then
    throw (foreignState parsed path
      "operation path matches neither journaled before nor after evidence")
  else
    appendRollbackIntent crates parsed path
    beside (restoreBefore crates options parsed path actual)
    appendRecord crates parsed (.rolledBack path.index)

def rollbackPath (path : RecoveryPath) : Journaled Unit := do
  if ← beside (linkedBackupRestoreIsExact crates options parsed path) then
    finishLinkedBackupPath crates options parsed path
  else if ← beside (linkedCreateIsExact crates options parsed path) then
    rollbackLinkedPath crates options parsed path
  else
    let actual ← beside (currentState crates options path)
    rollbackSettled crates options parsed path actual

/-! ### The whole journal -/

def discardPath (path : RecoveryPath) : Action Unit := do
  if ← linkedCreateIsExact crates options parsed path then
    throw (foreignState parsed path
      "linked install exists before any synchronized commit intent")
  if !matchesBefore path (← currentState crates options path) then
    throw (foreignState parsed path
      "uncommitted operation path no longer matches its exact before state")

def discardUncommitted : Action Unit :=
  parsed.paths.reverse.forM (discardPath crates options parsed)

def rollbackChanged : Journaled Unit :=
  parsed.paths.reverse.forM (rollbackPath crates options parsed)

def verifyFinishedPath (committed : Bool) (path : RecoveryPath) : Action Unit := do
  let actual ← currentState crates options path
  if !(if committed then matchesAfter path actual else matchesBefore path actual) then
    throw (foreignState parsed path
      (if committed then "finished commit no longer matches exact after evidence"
        else "finished rollback no longer matches exact before evidence"))
  orElse path.access.syncParent
    (pathIo parsed path "finished operation path directory did not synchronize")

def verifyFinished (committed : Bool) : Action Unit :=
  parsed.paths.forM (verifyFinishedPath crates options parsed committed)

def recoverState : Journaled RecoveryAction :=
  match parsed.finished with
  | some .committed => do
      beside (verifyFinished crates options parsed true)
      return .finishedCommitCleanup
  | some _ => do
      beside (verifyFinished crates options parsed false)
      return .discardedStaging
  | none =>
      if !parsed.prepared || parsed.commitIntents = ∅ then do
        beside (discardUncommitted crates options parsed)
        appendFinished crates parsed .aborted
        return .discardedStaging
      else do
        rollbackChanged crates options parsed
        appendFinished crates parsed .rolledBack
        return .rolledBack

end

/-! ### The run of a recovery -/

section

variable {T : Type} (crates : Crates T)

/-- Whether a valid undo receipt is bound to the recovered transaction. -/
def retainedReceipt (control : ControlDir) (transactionId : String) (options : WorktreeOptions) :
    Action (Option StoredReceipt) :=
  if (UndoId.parse transactionId).isNone then return none
  else ExceptT.adapt (fun error => error.inTransaction transactionId)
    (Undo.readExact crates control transactionId options)

def removeJournal (control : ControlDir) (transactionId : String) : Action Unit :=
  orElse control.removeOperationJournal fun error =>
    ((controlIo error).inTransaction transactionId).requiringRecovery

/-- What is done once the paths are settled. -/
def settle (control : ControlDir) (root : FsRoot) (options : WorktreeOptions)
    (parsed : ParsedJournal) (action : RecoveryAction) : Action Nat := do
  let retained ← retainedReceipt crates control parsed.transactionId options
  let keepBackups := retained.isSome && action = .finishedCommitCleanup
  let removed ← cleanupArtifacts crates options parsed keepBackups parsed.paths
  match retained with
  | some receipt =>
      if keepBackups then Undo.relocateBackups crates control root receipt options
      else orElse (control.removeUndoReceipt parsed.transactionId) fun error =>
        ((controlIo error).inTransaction parsed.transactionId).requiringRecovery
  | none => pure ()
  removeJournal control parsed.transactionId
  return removed

def resume (file : Ino) (options : WorktreeOptions) (transactionId : String) : Action Writer :=
  orJournal (Writer.resume crates file options.limits.maxJournalBytes) fun error =>
    ((WorktreeError.withSource .journalCorrupt .recover "failed to resume the operation journal"
      error).inTransaction transactionId).requiringRecovery

def readEntries (file : Ino) (options : WorktreeOptions) : Action (List Entry) :=
  orJournal (read crates file options.limits.maxJournalBytes) fun error =>
    (WorktreeError.withSource .journalCorrupt .recover "failed to replay the operation journal"
      error).requiringRecovery

/-- Recovers from the operation journal that was found. -/
def recoverOperation (control : ControlDir) (root : FsRoot) (file : Ino)
    (options : WorktreeOptions) : Action RecoveryReport := do
  let entries ← readEntries crates file options
  if entries = [] then
    orElse control.removeOperationJournal controlIo
    return ⟨none, .discardedStaging, [], 0⟩
  else
    let parsed ← parseJournal crates root entries options
    let writer ← resume crates file options parsed.transactionId
    let (result, _) ← ExceptT.lift ((recoverState crates options parsed).run.run writer)
    let action ← liftWorktree result
    let removed ← settle crates control root options parsed action
    return ⟨some parsed.transactionId, action, [], removed⟩

def recoverLocked (control : ControlDir) (root : FsRoot) (options : WorktreeOptions) :
    Action (Option RecoveryReport) := do
  let legacy ← orElse control.openJournal controlIo
  let operation ← orElse control.openOperationJournal controlIo
  let undo ← orElse control.openUndoJournal controlIo
  if ([legacy, operation, undo].filter Option.isSome).length > 1 then
    throw (WorktreeError.new .journalCorrupt .recover
      "edit, operation, and undo journals cannot be active together").requiringRecovery
  match undo, operation with
  | some file, _ => return some (← Undo.recoverUndo crates control root file options)
  | none, some file => return some (← recoverOperation crates control root file options)
  | none, none => return none

def acquire (root : FsRoot) : Action (Option TransactionLock) := do
  match ← orElse (root.openControl false) controlIo with
  | none => return none
  | some control =>
      let file ← orElse control.openLock controlIo
      match ← ExceptT.lift (perform (.tryLock file)).run with
      | .ok true => return some ⟨control, file⟩
      | .ok false =>
          throw (.new .rootBusy .lock "another worktree transaction holds the root lock")
      | .error error =>
          throw (.withSource .io .lock
            "failed to acquire the worktree lock for operation recovery" error.message)

end

end Recovery

/-- Resolves an interrupted operation or undo, if there is one. -/
def recoverOperationTransaction {T : Type} (crates : Crates T) (root : FsRoot)
    (options : WorktreeOptions) : Action (Option RecoveryReport) := do
  match ← Recovery.acquire root with
  | none => return none
  | some locked =>
      holding locked.file (Recovery.recoverLocked crates locked.control root options)

end Worktree
