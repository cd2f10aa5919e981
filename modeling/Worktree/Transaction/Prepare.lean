import Worktree.Operation.Prepare
import Worktree.Transaction.Stage
/-
Preparing an edit plan: under the root lock, with no journal pending, a journal
is created and filled until it says that everything is staged.
-/

namespace Worktree

open CrashLogic

namespace Edit

/-- A durably staged transaction that holds the root lock. -/
structure PreparedTransaction where
  transactionId : String
  operation : String
  preview : DryRunReport
  files : List StagedFile
  options : WorktreeOptions
  journal : JournalWriter
  control : ControlDir
  lock : Ino

section

variable {T : Type} (crates : EditCrates T)

/-! ### Pending journals -/

def openJournalError (error : IoError) : WorktreeError :=
  let code : WorktreeErrorCode := if error.kind = .invalidData then .journalCorrupt else .io
  let mapped := WorktreeError.withSource code .lock "failed to inspect pending recovery state"
    error.message
  if code = .journalCorrupt then mapped.requiringRecovery else mapped

/-- The journals are looked for until one is found. -/
def findPending (control : ControlDir) : Action Bool := do
  if (← orElse control.openJournal openJournalError).isSome then return true
  if (← orElse control.openOperationJournal openJournalError).isSome then return true
  return (← orElse control.openUndoJournal openJournalError).isSome

/-! ### The journal -/

def randomId : Action String := do
  let bytes ← orElse (perform (.random 16)) fun error =>
    .withSource .io .prepare "failed to generate a transaction identifier" error.message
  return String.ofList (Sha256Hash.hexOf bytes)

def createWriter (control : ControlDir) (options : WorktreeOptions) : Action JournalWriter := do
  let file ← orElse control.createJournal fun error =>
    .withSource .io .prepare "failed to create an exclusive transaction journal" error.message
  orElse control.sync fun error =>
    .withSource .durabilityFailed .prepare "failed to synchronize the journal directory"
      error.message
  orJournal (JournalWriter.new file options.limits.maxJournalBytes)
    (journalError .prepare "invalid new journal")

def fileCount (count : Nat) : Except WorktreeError Nat :=
  fromOption (toU32 count)
    (.new .transactionTooLarge .prepare "file count does not fit the journal contract")

def appendHeader (plan : EditPlan T) (transactionId : String) : Journaled Unit := do
  let contractHash := crates.sha256 (crates.encodePlan plan)
  let count ← beside (liftWorktree (fileCount plan.files.length))
  appendOr crates.toCrates (.header transactionId contractHash.display count) fun error =>
    (journalError .prepare "failed to synchronize the journal header" error).requiringRecovery

/-- Errors that name the transaction. -/
def named {α : Type} (transactionId : String) (action : Journaled α) : Journaled α :=
  ExceptT.adapt (fun error => error.inTransaction transactionId) action

def appendPrepared (count : Nat) : Journaled Unit := do
  let count ← beside (liftWorktree (fileCount count))
  appendOr crates.toCrates (.prepared count) fun error =>
    (journalError .prepare "failed to record durable preparation" error).requiringRecovery

def finishAborted (control : ControlDir) : Journaled Unit := do
  appendOr crates.toCrates (.finished .aborted) fun error =>
    (journalError .cleanup "failed to record aborted preparation" error).requiringRecovery
  beside (orElse control.removeJournal fun error =>
    (WorktreeError.withSource .recoveryRequired .cleanup "failed to remove the aborted journal"
      error.message).requiringRecovery)

/-- A failed staging ends the journal unless its error asks for a recovery. -/
def stageOrAbort (control : ControlDir) (projected : List (ProjectedTarget T))
    (transactionId : String) (options : WorktreeOptions) :
    PlanningJournaled (List StagedFile) := do
  match ← ExceptT.lift (stageAll crates projected transactionId options).run with
  | .ok staged => return staged
  | .error error =>
      if error.recoveryRequired then throw error
      else
        (finishAborted crates control).planning
        throw error

/-- Everything that needs the journal. -/
def prepareJournaled (plan : EditPlan T) (control : ControlDir)
    (projected : List (ProjectedTarget T)) (transactionId : String) (options : WorktreeOptions) :
    PlanningJournaled (List StagedFile) := do
  (named transactionId (appendHeader crates plan transactionId)).planning
  let staged ← stageOrAbort crates control projected transactionId options
  (appendPrepared crates staged.length).planning
  return staged

/-! ### The whole preparation -/

def prepareLocked (root : FsRoot) (options : WorktreeOptions) (plan : EditPlan T)
    (locked : TransactionLock) : Planning PreparedTransaction := do
  if ← (findPending locked.control).planning then
    throw ((WorktreeError.new .recoveryRequired .lock
      "a previous transaction journal must be recovered first").requiringRecovery)
  let projected ← projectPlan crates root options plan
  let transactionId ← randomId.planning
  let writer ← (createWriter locked.control options).planning
  let (result, journal) ← ExceptT.lift ((prepareJournaled crates plan locked.control projected
    transactionId options).run.run writer)
  let files ← ExceptT.mk (pure result)
  return { transactionId
           operation := plan.operation
           preview := dryRunReport plan projected
           files
           options
           journal
           control := locked.control
           lock := locked.file }

/-- A failed preparation releases the lock; a prepared transaction keeps it. -/
def prepareTransaction (root : FsRoot) (options : WorktreeOptions) (plan : EditPlan T) :
    Planning PreparedTransaction := do
  let locked ← (acquire root).planning
  match ← ExceptT.lift (prepareLocked crates root options plan locked).run with
  | .ok transaction => return transaction
  | .error error => do
      ExceptT.lift (Task.perform (.single (.unlock locked.file)))
      throw error

end

end Edit

end Worktree
