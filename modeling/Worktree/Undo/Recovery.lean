import Worktree.Operation.Replay
import Worktree.Undo.Rollback
/-
Resolving an interrupted undo: a journal without a durable rollback intent is
dropped and keeps the receipt, any other is completed until every path shows its
before state and the receipt is consumed.
-/

namespace Worktree

open CrashLogic

structure UndoReplay where
  rollbackId : String
  undoId : UndoId
  checksum : Sha256Hash
  pathCount : Nat
  intents : Finset Nat
  rolledBack : Finset Nat
  finished : Bool

namespace UndoReplay

/-! ### Replaying the journal -/

/-- Binds the journal to the receipt version it was created against. -/
def bind (replay : UndoReplay) (receipt : StoredReceipt) : Except WorktreeError Unit :=
  if replay.checksum ≠ receipt.checksum || replay.pathCount ≠ receipt.paths.length then
    .error ((Replay.corrupt "undo journal does not match its stored receipt").inTransaction
      replay.rollbackId)
  else .ok ()

def parseHeader (entries : List Entry) (options : WorktreeOptions) :
    Except WorktreeError UndoReplay :=
  match entries with
  | ⟨_, .header transactionId contractHash operation operationCount pathCount⟩ :: _ => do
      let undoId ← fromOption (UndoId.parse operation)
        (Replay.corrupt "undo journal header names an invalid receipt")
      let checksum ← fromOption (Sha256Hash.parse contractHash)
        (Replay.corrupt "undo journal header checksum is invalid")
      Replay.require (isValidId transactionId && operationCount = 0 && pathCount ≠ 0 &&
        pathCount ≤ options.limits.maxFiles) "invalid or over-limit undo journal header"
      return { rollbackId := transactionId
               undoId
               checksum
               pathCount
               intents := ∅
               rolledBack := ∅
               finished := false }
  | _ => .error (Replay.corrupt "undo journal does not begin with a header")

def requireIndex (replay : UndoReplay) (index : Nat) : Except WorktreeError Unit :=
  Replay.require (index < replay.pathCount) "undo record references an unknown path index"

def applyRecord (replay : UndoReplay) (record : Record) : Except WorktreeError UndoReplay := do
  if replay.finished then
    throw (Replay.corrupt "undo journal contains records after Finished")
  match record with
  | .rollbackIntent index =>
      replay.requireIndex index
      Replay.require (index ∉ replay.intents) "duplicate undo rollback intent"
      return { replay with intents := insert index replay.intents }
  | .rolledBack index =>
      replay.requireIndex index
      Replay.require (index ∈ replay.intents && index ∉ replay.rolledBack)
        "undo completion without a matching intent"
      return { replay with rolledBack := insert index replay.rolledBack }
  | .finished .rolledBack =>
      Replay.require (replay.rolledBack.card = replay.pathCount &&
        replay.intents = replay.rolledBack) "undo journal finished before every path"
      return { replay with finished := true }
  | _ => throw (Replay.corrupt "undo journal contains a foreign record")

def parse (entries : List Entry) (options : WorktreeOptions) : Except WorktreeError UndoReplay := do
  let replay ← parseHeader entries options
  (entries.tail.map Entry.record).foldlM applyRecord replay

end UndoReplay

namespace Undo

/-! ### Errors -/

def recoveryForeign (path : ReceiptPath) (replay : UndoReplay) (message : String) :
    WorktreeError :=
  ((((WorktreeError.new .undoConflict .recover message).atPath path.path).atFile
    path.index).inTransaction replay.rollbackId).requiringRecovery

def recoveryPathIo (path : ReceiptPath) (replay : UndoReplay) (message : String)
    (error : IoError) : WorktreeError :=
  ((((WorktreeError.withSource .recoveryRequired .recover message error.message).atPath
    path.path).atFile path.index).inTransaction replay.rollbackId).requiringRecovery

def consumed (path : ReceiptPath) : Nat :=
  if path.backupName.isSome then 1 else 0

def restored (path : ReceiptPath) (replay : UndoReplay) : Except WorktreeError SlotEvidence :=
  (restoredEvidence path).mapError fun error => error.inTransaction replay.rollbackId

section

variable {T : Type} (crates : Crates T)

def record (replay : UndoReplay) (record : Record) : Journaled Unit :=
  appendOr crates record fun error =>
    ((WorktreeError.withSource .recoveryRequired .recover
      "failed to synchronize an undo recovery record" error).inTransaction
      replay.rollbackId).requiringRecovery

def current (access : TargetAccess) (path : ReceiptPath) (replay : UndoReplay)
    (options : WorktreeOptions) : Action SlotEvidence :=
  orElse (access.slotEvidence crates.sha256 options.maxBytes)
    (recoveryPathIo path replay "failed to inspect an undo recovery target")

/-! ### One path -/

def finishLinkedRestore (control : ControlDir) (access : TargetAccess) (path : ReceiptPath)
    (replay : UndoReplay) (options : WorktreeOptions) : Journaled Nat := do
  if path.index ∈ replay.rolledBack ∨ path.index ∉ replay.intents then
    throw (recoveryForeign path replay "linked undo restore contradicts the journaled intents")
  match path.backupName, path.backup with
  | some name, some backup => do
      beside (orElse (control.finishLinkedRestore access name backup.identity)
        (recoveryPathIo path replay "failed to finish a linked undo restore"))
      beside (ExceptT.adapt (fun error => error.inTransaction replay.rollbackId)
        (verifyRestored crates access path options))
      record crates replay (.rolledBack path.index)
      return consumed path
  | _, _ => throw (recoveryForeign path replay "linked undo restore lacks its backup")

def linkedRestoreIsExact (control : ControlDir) (access : TargetAccess) (path : ReceiptPath)
    (replay : UndoReplay) (options : WorktreeOptions) : Action Bool :=
  match path.before, path.backupName, path.backup with
  | .present _, some name, some backup => do
      match ← ExceptT.lift (control.sameFileAsTarget access name).run with
      | .ok false => return false
      | .ok true =>
          let evidence ← orElse (control.linkedBackupEvidence crates.sha256 access name
              options.maxBytes)
            (recoveryPathIo path replay "failed to verify a linked undo restore")
          if evidence = backup then return true
          else throw (recoveryForeign path replay
            "linked undo restore does not match retained evidence")
      | .error error =>
          if error.kind = .notFound then return false
          else throw (recoveryPathIo path replay "failed to inspect a linked undo restore" error)
  | _, _, _ => return false

def convergeChanged (control : ControlDir) (access : TargetAccess) (path : ReceiptPath)
    (replay : UndoReplay) (options : WorktreeOptions) : Journaled Nat := do
  if path.index ∉ replay.intents then
    record crates replay (.rollbackIntent path.index)
  beside (ExceptT.adapt (fun error => error.inTransaction replay.rollbackId)
    (restorePath crates control access path options))
  record crates replay (.rolledBack path.index)
  return consumed path

def convergePath (control : ControlDir) (replay : UndoReplay) (options : WorktreeOptions)
    (path : ReceiptPath) (access : TargetAccess) : Journaled Nat := do
  if ← beside (linkedRestoreIsExact crates control access path replay options) then
    finishLinkedRestore crates control access path replay options
  else
    let actual ← beside (current crates access path replay options)
    let restored ← beside (liftWorktree (restored path replay))
    if path.index ∈ replay.rolledBack then
      if actual = restored then return 0
      else throw (recoveryForeign path replay
        "a journaled restored path no longer matches its before state")
    else if actual = restored then
      if path.index ∉ replay.intents then
        throw (recoveryForeign path replay "path was restored without a durable undo intent")
      record crates replay (.rolledBack path.index)
      return consumed path
    else if actual ≠ path.after then
      throw (recoveryForeign path replay
        "path matches neither its committed nor its restored evidence")
    else convergeChanged crates control access path replay options

/-! ### The whole receipt -/

def verifyFinishedPath (replay : UndoReplay) (options : WorktreeOptions) (path : ReceiptPath)
    (access : TargetAccess) : Action Unit := do
  let actual ← current crates access path replay options
  let restored ← liftWorktree (restored path replay)
  if actual ≠ restored then
    throw (recoveryForeign path replay "finished undo no longer matches exact before evidence")
  orElse access.syncParent
    (recoveryPathIo path replay "finished undo path did not synchronize")

def verifyFinished (receipt : StoredReceipt) (accesses : List TargetAccess) (replay : UndoReplay)
    (options : WorktreeOptions) : Action Unit :=
  (receipt.paths.zip accesses).forM fun (path, access) =>
    verifyFinishedPath crates replay options path access

/-- The paths in the order they are completed in. -/
def completeFrom (control : ControlDir) (replay : UndoReplay) (options : WorktreeOptions) :
    List (ReceiptPath × TargetAccess) → Journaled Nat
  | [] => return 0
  | (path, access) :: rest => do
      let removed ← convergePath crates control replay options path access
      return removed + (← completeFrom control replay options rest)

/-- Idempotently completes an interrupted undo in reverse index order. -/
def complete (control : ControlDir) (receipt : StoredReceipt) (accesses : List TargetAccess)
    (replay : UndoReplay) (options : WorktreeOptions) : Journaled Nat :=
  completeFrom crates control replay options (receipt.paths.zip accesses).reverse

def openTargets (root : FsRoot) (replay : UndoReplay) :
    List ReceiptPath → Action (List TargetAccess)
  | [] => return []
  | path :: rest => do
      let access ← orElse (root.openTarget crates path.path)
        (recoveryPathIo path replay "failed to reopen a retained path during undo recovery")
      return access :: (← openTargets root replay rest)

def removeUndoJournal (control : ControlDir) (rollbackId : Option String) : Action Unit :=
  orElse control.removeUndoJournal fun error =>
    let mapped := (WorktreeError.withSource .recoveryRequired .recover
      "failed to remove the resolved undo journal" error.message).requiringRecovery
    rollbackId.elim mapped mapped.inTransaction

def report (replay : UndoReplay) (action : RecoveryAction) (removed : Nat) : RecoveryReport :=
  ⟨some replay.rollbackId, action, [], removed⟩

def finishWithoutReceipt (control : ControlDir) (replay : UndoReplay) : Action RecoveryReport :=
  if replay.finished then do
    removeUndoJournal control (some replay.rollbackId)
    return report replay .rolledBack 0
  else throw ((WorktreeError.new .undoCorrupt .recover
    "undo journal has no receipt to restore from").inTransaction
    replay.rollbackId).requiringRecovery

def consume (control : ControlDir) (replay : UndoReplay) (id : String) : Action Unit := do
  orElse (control.removeUndoReceipt id) fun error =>
    ((WorktreeError.withSource .recoveryRequired .recover
      "failed to consume the restored undo receipt" error.message).inTransaction
      replay.rollbackId).requiringRecovery
  removeUndoJournal control (some replay.rollbackId)

def completeJournaled (control : ControlDir) (receipt : StoredReceipt)
    (accesses : List TargetAccess) (replay : UndoReplay) (options : WorktreeOptions) :
    Journaled Nat := do
  let removed ← complete crates control receipt accesses replay options
  appendOr crates (.finished .rolledBack) fun error =>
    ((WorktreeError.withSource .recoveryRequired .recover
      "failed to record completed undo recovery" error).inTransaction
      replay.rollbackId).requiringRecovery
  return removed

def recoverReceipt (control : ControlDir) (root : FsRoot) (file : Ino) (options : WorktreeOptions)
    (replay : UndoReplay) (receipt : StoredReceipt) : Action RecoveryReport := do
  liftWorktree (replay.bind receipt)
  let accesses ← openTargets crates root replay receipt.paths
  if replay.finished then
    verifyFinished crates receipt accesses replay options
    consume control replay receipt.id
    return report replay .rolledBack 0
  else if replay.intents = ∅ then
    removeUndoJournal control (some replay.rollbackId)
    return report replay .discardedStaging 0
  else
    let writer ← orJournal (Writer.resume crates file options.limits.maxJournalBytes) fun error =>
      ((WorktreeError.withSource .journalCorrupt .recover "failed to resume the undo journal"
        error).inTransaction replay.rollbackId).requiringRecovery
    let (result, _) ← ExceptT.lift ((completeJournaled crates control receipt accesses replay
      options).run.run writer)
    let removed ← liftWorktree result
    consume control replay receipt.id
    return report replay .rolledBack removed

/-- Deterministically resolves an interrupted undo journal. -/
def recoverUndo (control : ControlDir) (root : FsRoot) (file : Ino) (options : WorktreeOptions) :
    Action RecoveryReport := do
  let entries ← orJournal (read crates file options.limits.maxJournalBytes) fun error =>
    (WorktreeError.withSource .journalCorrupt .recover "failed to replay the undo journal"
      error).requiringRecovery
  if entries = [] then
    removeUndoJournal control none
    return ⟨none, .discardedStaging, [], 0⟩
  else
    let replay ← liftWorktree (UndoReplay.parse entries options)
    let stored ← ExceptT.adapt (fun error => error.inTransaction replay.rollbackId)
      (readExact crates control replay.undoId.value options)
    match stored with
    | none => finishWithoutReceipt control replay
    | some receipt => recoverReceipt crates control root file options replay receipt

end

end Undo

end Worktree
