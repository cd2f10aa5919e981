import Worktree.Operation.Prepare
/-
Committing a prepared transaction path by path, undoing in the same process
what changed when a path fails, and aborting.

Every change of a path stands between its commit intent and its committed
record; every restoration between its rollback intent and its record.
-/

namespace Worktree

open CrashLogic

inductive MutationState
  | unchanged
  | changed
  | linkedInstall
  | ambiguous
  deriving DecidableEq, Repr

/-- One path of a commit; its failure comes with what became of the path. -/
abbrev PathStep := ExceptT (WorktreeError × MutationState) (StateT Writer (Task FsOp))

def Action.step {α : Type} (action : Action α) (state : MutationState) : PathStep α :=
  ExceptT.adapt (fun error => (error, state)) (beside action)

def appendStep {T : Type} (crates : Crates T) (record : Record) (state : MutationState)
    (wrap : JournalError → WorktreeError) : PathStep Unit :=
  ExceptT.adapt (fun error => (error, state)) (appendOr crates record wrap)

namespace Commit

/-! ### Evidence -/

def pathError (phase : TransactionPhase) (path : StagedPath) (index : Nat) (message : String)
    (source : IoError) : WorktreeError :=
  ((WorktreeError.withSource .concurrentModification phase message source.message).atPath
    path.path).atFile index

def rollbackError (path : StagedPath) (message : String) (source : IoError) : WorktreeError :=
  ((WorktreeError.withSource .rollbackFailed .rollback message source.message).atPath
    path.path).atFile path.stableIndex

def rollbackLogic (path : StagedPath) (message : String) : WorktreeError :=
  ((WorktreeError.new .rollbackFailed .rollback message).atPath path.path).atFile path.stableIndex

def required (value : Option String) (path : StagedPath) : Except WorktreeError String :=
  fromOption value (rollbackLogic path "required transaction artifact is missing")

section

variable {T : Type} (crates : Crates T) (transaction : PreparedWorktreeTransaction)

def verifySlot (path : StagedPath) (expected : SlotEvidence) (index : Nat) (message : String) :
    Action Unit := do
  let _ ← orElse (path.access.verifySlot crates.sha256 expected
    transaction.options.limits.maxSourceBytesPerFile) (pathError .commit path index message)

def verifyArtifact (path : StagedPath) (name : Option String) (expected : Option PresentEvidence)
    (maxBytes : Nat) (index : Nat) (message : String) : Action Unit :=
  match name, expected with
  | none, none => return ()
  | some name, some expected => do
      let actual ← orElse (path.access.artifactEvidence crates.sha256 name maxBytes)
        (pathError .commit path index message)
      if actual = expected then return ()
      else throw (((WorktreeError.new .concurrentModification .commit message).atPath
        path.path).atFile index)
  | _, _ =>
      throw (((WorktreeError.new .journalCorrupt .commit
        "artifact recipe and evidence disagree").atPath path.path).atFile index)

def verifyPath (path : StagedPath) (index : Nat) : Action Unit := do
  orElse (transaction.root.revalidateParent crates path.access)
    (pathError .commit path index "path parent changed after preparation")
  verifySlot crates transaction path path.before index "source path changed"
  verifyArtifact crates path path.stageName path.after.present?
    transaction.options.limits.maxOutputBytesPerFile index "staged output changed"
  verifyArtifact crates path path.backupName path.backup
    transaction.options.limits.maxSourceBytesPerFile index "backup changed"

def verifyAll : Action Unit :=
  transaction.paths.zipIdx.forM fun (path, index) => verifyPath crates transaction path index

/-- Whether the slot shows the evidence; a failing read shows nothing. -/
def showsSlot (path : StagedPath) (expected : SlotEvidence) (maxBytes : Nat) : Task FsOp Bool :=
  return (← (path.access.verifySlot crates.sha256 expected maxBytes).run).isOk

def classifySlot (path : StagedPath) : Task FsOp MutationState := do
  if ← showsSlot crates path path.after transaction.options.limits.maxOutputBytesPerFile then
    return .changed
  else if ← showsSlot crates path path.before transaction.options.limits.maxSourceBytesPerFile then
    return .unchanged
  else return .ambiguous

def classify (path : StagedPath) : Task FsOp MutationState :=
  match path.stageName with
  | none => classifySlot crates transaction path
  | some stage => do
      match ← (path.access.sameFileAsArtifact stage).run with
      | .ok true => return .linkedInstall
      | .ok false => classifySlot crates transaction path
      | .error error =>
          if error.kind = .notFound then classifySlot crates transaction path
          else return .ambiguous

/-! ### One path -/

def mutationError (path : StagedPath) (message : String) (source : IoError) : WorktreeError :=
  pathError .commit path path.stableIndex message source

def mutate (path : StagedPath) : Action Unit :=
  match path.before, path.after with
  | .absent, .present _ => do
      let stage ← liftWorktree (required path.stageName path)
      orElse (path.access.installAbsentFrom stage)
        (mutationError path "failed to install an absent destination")
  | .present before, .absent =>
      orElse (path.access.removeExact crates.sha256 before
          transaction.options.limits.maxSourceBytesPerFile)
        (mutationError path "failed to remove an exact source")
  | .present _, .present _ => do
      let stage ← liftWorktree (required path.stageName path)
      orElse (path.access.replaceFrom stage)
        (mutationError path "failed to replace an exact path")
  | .absent, .absent =>
      throw ((WorktreeError.new .invalidPlan .commit
        "operation contains an empty path transition").atPath path.path)

/-- A failed change is classified by looking at the path again. -/
def classified (path : StagedPath) (action : Action Unit)
    (wrap : MutationState → WorktreeError → WorktreeError) : PathStep Unit :=
  ExceptT.mk do
    match ← StateT.lift action.run with
    | .ok () => return .ok ()
    | .error error =>
        let state ← StateT.lift (classify crates transaction path)
        return .error (wrap state error, state)

def mutated (path : StagedPath) : PathStep Unit :=
  classified crates transaction path (mutate crates transaction path) fun state error =>
    if state = .ambiguous then error.requiringRecovery else error

def synced (path : StagedPath) (index : Nat) : PathStep Unit :=
  classified crates transaction path
    (orElse path.access.syncParent fun error =>
      (pathError .commit path index "path changed but parent synchronization failed"
        error).requiringRecovery)
    fun _ error => error

def commitOne (path : StagedPath) (index : Nat) : PathStep Unit := do
  (orElse (transaction.root.revalidateParent crates path.access)
    (pathError .commit path index "path parent changed before commit")).step .unchanged
  (verifySlot crates transaction path path.before index "source path changed").step .unchanged
  appendStep crates (.commitIntent path.stableIndex) .unchanged fun error =>
    (operationJournalError .commit "failed to synchronize operation commit intent"
      error).requiringRecovery
  mutated crates transaction path
  synced crates transaction path index
  appendStep crates (.committed path.stableIndex) .changed fun error =>
    (operationJournalError .commit "path changed but completion record did not synchronize"
      error).requiringRecovery

/-! ### Rolling back in the same process -/

def sameFileOrFalse (access : TargetAccess) (artifact : Option String) : Action (Option String) :=
  match artifact with
  | none => return none
  | some stage => do
      match ← ExceptT.lift (access.sameFileAsArtifact stage).run with
      | .ok true => return some stage
      | _ => return none

def restoreAbsent (path : StagedPath) : Action Unit := do
  match ← sameFileOrFalse path.access path.stageName with
  | some stage =>
      orElse (path.access.rollbackLinkedInstall stage)
        (rollbackError path "failed to reverse linked install")
  | none => do
      let after ← liftWorktree (fromOption path.after.present?
        (rollbackLogic path "absent source has no present output"))
      orElse (path.access.removeExact crates.sha256 after
          transaction.options.limits.maxOutputBytesPerFile)
        (rollbackError path "failed to remove committed output")
  orElse path.access.syncParent (rollbackError path "rollback did not synchronize")

def restorePresent (path : StagedPath) (before : PresentEvidence) : Action Unit := do
  let backup ← liftWorktree (required path.backupName path)
  let actual ← orElse (path.access.slotEvidence crates.sha256
      transaction.options.limits.maxOutputBytesPerFile)
    (rollbackError path "failed to inspect rollback target")
  match actual with
  | .absent =>
      orElse (path.access.installAbsentFrom backup)
        (rollbackError path "failed to reinstall exact backup")
  | .present actual =>
      if some actual = path.after.present? then
        orElse (path.access.replaceFrom backup)
          (rollbackError path "failed to restore exact backup")
      else throw (rollbackLogic path "refusing to overwrite a foreign path state")
  orElse path.access.syncParent (rollbackError path "rollback did not synchronize")
  let evidence ← liftWorktree (fromOption path.backup
    (rollbackLogic path "backup evidence is missing"))
  let _ ← orElse (path.access.verifySlot crates.sha256
      (.present { before with identity := evidence.identity })
      transaction.options.limits.maxSourceBytesPerFile)
    (rollbackError path "restored backup failed verification")

def restore (path : StagedPath) : Action Unit :=
  match path.before with
  | .absent => restoreAbsent crates transaction path
  | .present before => restorePresent crates transaction path before

def rollbackOne (path : StagedPath) : Journaled Unit := do
  appendOr crates (.rollbackIntent path.stableIndex) fun error =>
    (operationJournalError .rollback "failed to synchronize operation rollback intent"
      error).requiringRecovery
  beside (ExceptT.adapt (fun error =>
      (error.inTransaction transaction.transactionId).requiringRecovery)
    (restore crates transaction path))
  appendOr crates (.rolledBack path.stableIndex) fun error =>
    (operationJournalError .rollback "restored path but rollback record did not synchronize"
      error).requiringRecovery

def removeJournal (message : String) : Action Unit :=
  orElse transaction.control.removeOperationJournal fun error =>
    (WorktreeError.withSource .recoveryRequired .cleanup message error.message).requiringRecovery

/-- Restores the changed paths, the latest first. -/
def rollbackChanged (changed : List StagedPath) : Journaled Unit := do
  changed.reverse.forM (rollbackOne crates transaction)
  appendOr crates (.finished .rolledBack) fun error =>
    (operationJournalError .rollback "failed to record completed operation rollback"
      error).requiringRecovery
  let _ ← beside (cleanup transaction.paths)
  beside (removeJournal transaction "rollback succeeded but operation journal cleanup failed")

def finishWithoutChanges : Journaled Unit := do
  appendOr crates (.finished .aborted) fun error =>
    (operationJournalError .cleanup "failed to record unchanged operation abort"
      error).requiringRecovery
  let _ ← beside (cleanup transaction.paths)
  beside (removeJournal transaction "failed to remove unchanged operation journal")

/-! ### All paths -/

/-- How the paths of a commit may fail: with a path nobody can classify, or with
the paths that changed until then. -/
inductive Failure
  | ambiguous (error : WorktreeError)
  | changed (error : WorktreeError) (paths : List StagedPath)

def failure (changed : List StagedPath) (path : StagedPath) :
    WorktreeError × MutationState → Failure
  | (error, .changed) => .changed error (changed ++ [path])
  | (error, .linkedInstall) => .changed error (changed ++ [path])
  | (error, .unchanged) => .changed error changed
  | (error, .ambiguous) => .ambiguous error

/-- Commits the paths in order; `changed` are those before them. -/
def commitPaths (changed : List StagedPath) :
    List (StagedPath × Nat) → ExceptT Failure (StateT Writer (Task FsOp)) Unit
  | [] => return ()
  | (path, index) :: rest => do
      ExceptT.adapt (failure changed path) (commitOne crates transaction path index)
      commitPaths (changed ++ [path]) rest

def appendFinishedCommit : Journaled Unit :=
  appendOr crates (.finished .committed) fun error =>
    (operationJournalError .commit "all operation paths changed but final journal sync failed"
      error).requiringRecovery

def applyReport : WorktreeApplyReport :=
  { transactionId := transaction.transactionId
    operation := transaction.operation
    files := transaction.operations
    touchedPaths := transaction.paths.length }

/-- The commit of every path; `discard` runs before an in-process rollback. -/
def commitAll (discard : Action Unit) : Journaled Unit := do
  match ← ExceptT.lift (commitPaths crates transaction [] transaction.paths.zipIdx).run with
  | .ok () => return ()
  | .error (.ambiguous error) =>
      throw (error.inTransaction transaction.transactionId).requiringRecovery
  | .error (.changed error changed) => do
      beside discard
      rollbackChanged crates transaction changed
      throw (error.inTransaction transaction.transactionId)

def verified : Journaled Unit := do
  match ← ExceptT.lift (StateT.lift (verifyAll crates transaction).run) with
  | .ok () => return ()
  | .error error => do
      finishWithoutChanges crates transaction
      throw (error.inTransaction transaction.transactionId)

def commitJournaled : Journaled WorktreeApplyReport := do
  verified crates transaction
  commitAll crates transaction (pure ())
  appendFinishedCommit crates
  let _ ← beside (cleanup transaction.paths)
  beside (removeJournal transaction "operation commit succeeded but journal cleanup failed")
  return applyReport transaction

def abortJournaled : Journaled AbortReport := do
  appendOr crates (.finished .aborted) fun error =>
    (operationJournalError .cleanup "failed to record explicit operation abort"
      error).requiringRecovery
  let removed ← beside (cleanup transaction.paths)
  beside (removeJournal transaction "operation abort succeeded but journal cleanup failed")
  return ⟨transaction.transactionId, transaction.paths.length, removed⟩

end

end Commit

namespace PreparedWorktreeTransaction

variable {T : Type} (crates : Crates T) (transaction : PreparedWorktreeTransaction)

/-- The transaction is used up: its journal is dropped and its lock released. -/
def consume {α : Type} (session : Journaled α) : Action α :=
  holding transaction.lock (ExceptT.mk do
    return (← session.run.run transaction.journal).1)

/-- Revalidates every path and atomically commits each unique slot in path order. -/
def commit : Action WorktreeApplyReport :=
  transaction.consume (Commit.commitJournaled crates transaction)

/-- Discards a prepared plan without changing a worktree path. -/
def abort : Action AbortReport :=
  transaction.consume (Commit.abortJournaled crates transaction)

end PreparedWorktreeTransaction

end Worktree
