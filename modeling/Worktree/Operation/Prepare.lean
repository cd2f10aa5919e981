import Worktree.Operation.Stage
/-
Preparing a plan: under the root lock, with no journal pending, a journal is
created and filled until it says that everything is staged.
-/

namespace Worktree

open CrashLogic

/-! ### The lock -/

structure TransactionLock where
  control : ControlDir
  file : Ino

def acquire (root : FsRoot) : Action TransactionLock := do
  let control ← orElse (root.openControl true) fun error =>
    .withSource .io .lock "failed to open the worktree control directory" error.message
  let control ← liftWorktree (fromOption control
    (.new .io .lock "worktree control directory was unavailable after creation"))
  let file ← orElse control.openLock fun error =>
    .withSource .io .lock "failed to open the worktree lock" error.message
  match ← ExceptT.lift (perform (.tryLock file)).run with
  | .ok true => return ⟨control, file⟩
  | .ok false =>
      throw (.new .rootBusy .lock "another worktree transaction holds the root lock")
  | .error error =>
      throw (.withSource .io .lock "failed to acquire the worktree lock" error.message)

/-- Runs an action and releases the lock when it is over, however it ends. -/
def holding {α : Type} (file : Ino) (action : Action α) : Action α :=
  ExceptT.mk do
    let result ← action.run
    Task.perform (.unlock file)
    return result

/-! ### Pending journals -/

def pendingError (error : IoError) : WorktreeError :=
  let code : WorktreeErrorCode := if error.kind = .invalidData then .journalCorrupt else .io
  let mapped := WorktreeError.withSource code .lock
    "failed to inspect pending transaction state" error.message
  if code = .journalCorrupt then mapped.requiringRecovery else mapped

def pendingRecovery : WorktreeError :=
  (WorktreeError.new .recoveryRequired .lock
    "a previous transaction journal must be recovered first").requiringRecovery

/-- Rejects new work while any edit, operation, or undo journal is pending. -/
def ensureNoPending (control : ControlDir) : Action Unit := do
  if (← orElse control.openJournal pendingError).isSome then throw pendingRecovery
  if (← orElse control.openOperationJournal pendingError).isSome then throw pendingRecovery
  if (← orElse control.openUndoJournal pendingError).isSome then throw pendingRecovery

section

variable {T : Type} (crates : Crates T)

/-! ### The plan contract -/

def planLimits (options : WorktreeOptions) : RefactorPlanLimits :=
  let limits := options.limits
  { maxOperations := limits.maxFiles
    maxPaths := limits.maxFiles
    maxPathBytes := 4096
    maxOperationBytes := limits.maxOperationBytes
    maxEditsPerFile := limits.maxEditsPerFile
    maxTotalEdits := min (limits.maxFiles * limits.maxEditsPerFile) u64Max
    maxCreateBytesPerFile := limits.maxOutputBytesPerFile
    maxTotalCreateBytes := limits.maxTotalOutputBytes
    maxTotalTextBytes := limits.maxTotalArtifactBytes
    maxExtensionBytes := limits.maxExtensionBytes
    maxExtensionNodes := limits.maxExtensionNodes
    maxExtensionDepth := limits.maxExtensionDepth
    maxEvidenceEntries := limits.maxEvidenceEntries
    maxEvidenceTextBytes := limits.maxEvidenceTextBytes
    maxCodeBytes := limits.maxCodeBytes }

def isReservedPath (path : String) : Bool :=
  reservedRoots.contains (String.ofList (((splitPath path).headD "").toList.map Char.toLower))

def contractCode (error : PlanError) : WorktreeErrorCode :=
  match error.code with
  | .operationConflict => .operationConflict
  | .unsafePath => if error.path.any isReservedPath then .reservedPath else .pathEscape
  | .other => .invalidPlan

def validateContract (plan : WorktreePlan T) (options : WorktreeOptions) :
    Except WorktreeError Sha256Hash :=
  (crates.validateExecutorPlan plan (planLimits options)).mapError fun error =>
    let mapped := WorktreeError.withSource (contractCode error) .validate
      "weavatrix-refactor-plan rejected the executable plan" error.message
    let mapped := error.path.elim mapped mapped.atPath
    error.operationIndex.elim mapped mapped.atFile

/-! ### Preparation -/

def operationJournalError (phase : TransactionPhase) (message : String) (source : JournalError) :
    WorktreeError :=
  .withSource .journalCorrupt phase message source

def prepareTooLarge (message : String) : WorktreeError :=
  .new .transactionTooLarge .prepare message

/-- The lowercase hexadecimal form of sixteen random bytes. -/
def randomId : Action String := do
  let bytes ← orElse (perform (.random 16)) fun error =>
    .withSource .io .prepare "failed to generate an operation transaction identifier"
      error.message
  return String.ofList (Sha256Hash.hexOf bytes)

def appendHeader (plan : WorktreePlan T) (contractHash : Sha256Hash) (transactionId : String)
    (pathCount : Nat) : Journaled Unit := do
  let operationCount ← beside (liftWorktree (fromOption (toU32 plan.operations.length)
    (prepareTooLarge "operation count does not fit the journal contract")))
  let pathCount ← beside (liftWorktree (fromOption (toU32 pathCount)
    (prepareTooLarge "path count does not fit the journal contract")))
  appendOr crates
    (.header transactionId contractHash.display plan.operation operationCount pathCount)
    fun error => (operationJournalError .prepare
      "failed to synchronize the operation journal header" error).requiringRecovery

def finishFailedPrepare (control : ControlDir) : Journaled Unit := do
  appendOr crates (.finished .aborted) fun error => (operationJournalError .cleanup
    "failed to record aborted operation preparation" error).requiringRecovery
  beside (orElse control.removeOperationJournal fun error =>
    (WorktreeError.withSource .recoveryRequired .cleanup
      "failed to remove the aborted operation journal" error.message).requiringRecovery)

def appendPrepared (operationCount pathCount : Nat) : Journaled Unit := do
  let operationCount ← beside (liftWorktree (fromOption (toU32 operationCount)
    (prepareTooLarge "operation count does not fit the journal contract")))
  let pathCount ← beside (liftWorktree (fromOption (toU32 pathCount)
    (prepareTooLarge "path count does not fit the journal contract")))
  appendOr crates (.prepared operationCount pathCount) fun error => (operationJournalError .prepare
    "failed to record durable operation preparation" error).requiringRecovery

/-- What is appended between the header and the end of preparation. -/
def stageOrAbort (panics : Nat → Option (Nat × Payload)) (control : ControlDir)
    (projected : ProjectedPlan T) (transactionId : String) (options : WorktreeOptions) :
    PlanningJournaled (String × List OperationChange × List StagedPath) := do
  match ← ExceptT.lift (stageAll crates panics projected transactionId options).run with
  | .ok value => return value
  | .error error =>
      if error.recoveryRequired then throw (error.inTransaction transactionId)
      else
        (finishFailedPrepare crates control).planning
        throw (error.inTransaction transactionId)

/-- Everything that needs the journal; its writer comes back in either case. -/
def prepareJournaled (panics : Nat → Option (Nat × Payload)) (plan : WorktreePlan T)
    (fingerprint : Sha256Hash) (root : FsRoot) (control : ControlDir)
    (projected : ProjectedPlan T) (transactionId : String) (options : WorktreeOptions) :
    PlanningJournaled (String × List OperationChange × List StagedPath) := do
  (appendHeader crates plan fingerprint transactionId projected.paths.length).planning
  let (operation, operations, paths) ←
    stageOrAbort crates panics control projected transactionId options
  (appendPrepared crates operations.length paths.length).planning
  (beside (orElse (perform (.cloneHandle root.dir)) fun error =>
    (WorktreeError.withSource .io .prepare "failed to retain the worktree root capability"
      error.message).requiringRecovery)).planning
  return (operation, operations, paths)

def createWriter (control : ControlDir) (options : WorktreeOptions) : Action Writer := do
  let file ← orElse control.createOperationJournal fun error =>
    .withSource .io .prepare "failed to create the exclusive operation journal" error.message
  orElse control.sync fun error =>
    (WorktreeError.withSource .durabilityFailed .prepare
      "failed to synchronize the operation journal directory" error.message).requiringRecovery
  orJournal (Writer.new file options.limits.maxJournalBytes) fun error =>
    (operationJournalError .prepare "invalid new operation journal" error).requiringRecovery

def prepareLocked (panics : Nat → Option (Nat × Payload)) (root : FsRoot)
    (options : WorktreeOptions) (plan : WorktreePlan T) (fingerprint : Sha256Hash)
    (locked : TransactionLock) :
    Planning PreparedWorktreeTransaction := do
  (ensureNoPending locked.control).planning
  let projected ← project crates root options plan
  let transactionId ← randomId.planning
  let writer ← (createWriter locked.control options).planning
  let (result, journal) ← ExceptT.lift ((prepareJournaled crates panics plan fingerprint root
    locked.control projected transactionId options).run.run writer)
  let (operation, operations, paths) ← ExceptT.mk (pure result)
  return { transactionId
           contractHash := fingerprint
           operation
           preview := preview projected
           operations
           paths
           options
           root
           journal
           control := locked.control
           lock := locked.file }

/-- A failed preparation releases the lock; a prepared transaction keeps it. -/
def prepareOperationPlan (panics : Nat → Option (Nat × Payload)) (root : FsRoot)
    (options : WorktreeOptions) (plan : WorktreePlan T) :
    Planning PreparedWorktreeTransaction := do
  let fingerprint ← ExceptT.mk (pure (validateContract crates plan options))
  let locked ← (acquire root).planning
  match ← ExceptT.lift (prepareLocked crates panics root options plan fingerprint locked).run with
  | .ok transaction => return transaction
  | .error error => do
      ExceptT.lift (Task.perform (.single (.unlock locked.file)))
      throw error

end

end Worktree
