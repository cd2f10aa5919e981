import Worktree.Operation.Prepare
/-
Undo receipts: the checksummed evidence of a retained commit, how it is bound to
its transaction and written, and how it is read back and checked.
-/

namespace Worktree

open CrashLogic

/-- Exact opaque identifier of one retained commit. -/
structure UndoId where
  value : String
  valid : isValidId value = true
  deriving DecidableEq

def UndoId.parse (value : String) : Option UndoId :=
  if valid : isValidId value = true then some ⟨value, valid⟩ else none

structure UndoRetention where
  maxReceipts : Nat
  maxBytes : Nat
  deriving DecidableEq, Repr

def UndoRetention.default : UndoRetention :=
  { maxReceipts := 32
    maxBytes := 384 * 1024 * 1024 }

structure UndoReceipt where
  id : String
  planFingerprint : Sha256Hash
  before : Sha256Hash
  after : Sha256Hash
  touchedPaths : Nat
  retainedBytes : Nat
  deriving DecidableEq

structure RetainedApplyReport where
  apply : WorktreeApplyReport
  receipt : UndoReceipt
  deriving DecidableEq

structure UndoStoreUsage where
  receipts : Nat
  bytes : Nat
  deriving DecidableEq

structure UndoRollbackReport where
  undoId : String
  rollbackTransactionId : String
  restoredPaths : Nat
  artifactsRemoved : Nat
  deriving DecidableEq

structure StoredReceipt where
  body : ReceiptBody
  checksum : Sha256Hash
  storedBytes : Nat
  deriving DecidableEq

namespace StoredReceipt

def id (receipt : StoredReceipt) : String := receipt.body.transactionId

def paths (receipt : StoredReceipt) : List ReceiptPath := receipt.body.paths

def retainedBytes (receipt : StoredReceipt) : Nat := receipt.body.retainedBytes

def publicReceipt (receipt : StoredReceipt) : UndoReceipt :=
  { id := receipt.body.transactionId
    planFingerprint := receipt.body.planFingerprint
    before := receipt.body.beforeFingerprint
    after := receipt.body.afterFingerprint
    touchedPaths := receipt.body.paths.length
    retainedBytes := receipt.body.retainedBytes }

end StoredReceipt

namespace Undo

def schema : String := "weavatrix.worktree-undo.v1"

def snapshotDomain : String := "weavatrix.worktree-snapshot.v1"

/-! ### Errors -/

def undoIo (phase : TransactionPhase) (message : String) (error : IoError) : WorktreeError :=
  .withSource .undoFailed phase message error.message

def storeIo (error : IoError) : WorktreeError :=
  undoIo .recover "undo store I/O failed" error

def corrupt (message : String) : WorktreeError :=
  (WorktreeError.new .undoCorrupt .recover message).requiringRecovery

section

variable {T : Type} (crates : Crates T)

/-! ### The body of a receipt -/

def snapshot (paths : List ReceiptPath) (before : Bool) : Sha256Hash :=
  crates.sha256 (crates.snapshot.encode
    (snapshotDomain, paths.map fun path =>
      (path.path, if before then path.before else path.after)))

def bodyChecksum (body : ReceiptBody) : Sha256Hash :=
  crates.sha256 (crates.receiptBody.encode body)

/-- Adds up the sizes, or nothing when they do not fit 64 bits. -/
def totalBytes (sizes : List Nat) : Option Nat :=
  sizes.foldlM checkedAdd 0

def receiptPath (path : StagedPath) : ReceiptPath :=
  { index := path.stableIndex
    path := path.path
    before := path.before
    after := path.after
    backupName := path.backupName
    backup := path.backup }

def bodyFrom (transaction : PreparedWorktreeTransaction) : Except WorktreeError ReceiptBody := do
  let paths := transaction.paths.map receiptPath
  let retainedBytes ← fromOption
    (totalBytes ((paths.filterMap ReceiptPath.backup).map PresentEvidence.bytes))
    (corrupt "undo artifact bytes overflow")
  return { schema
           transactionId := transaction.transactionId
           planFingerprint := transaction.contractHash
           beforeFingerprint := snapshot crates paths true
           afterFingerprint := snapshot crates paths false
           retainedBytes
           paths }

def validatePolicy (policy : UndoRetention) (options : WorktreeOptions) :
    Except WorktreeError Unit :=
  if policy.maxReceipts = 0 || policy.maxBytes = 0 ||
      policy.maxReceipts > options.limits.maxUndoReceipts ||
      policy.maxBytes > options.limits.maxTotalUndoBytes then
    .error (.new .invalidOptions .validate
      "undo retention policy is zero or exceeds worktree limits")
  else .ok ()

/-! ### Reading receipts -/

/-- One path of a receipt, after the key of the path before it. -/
def validateReceiptPath (transactionId : String) (position : Nat) (previous : Option String)
    (path : ReceiptPath) : Except WorktreeError Unit := do
  if path.index ≠ position || (crates.validatePlanPath path.path 4096).toBool = false then
    throw (corrupt "undo receipt contains an invalid path or index")
  if previous.any fun value => ¬ value < crates.portablePathKey path.path then
    throw (corrupt "undo receipt paths alias or are not ordered")
  match path.before, path.backupName, path.backup with
  | .present before, some name, some backup =>
      if name = artifactName transactionId path.index "backup" ∧ before.sha256 = backup.sha256 ∧
          before.bytes = backup.bytes ∧ before.permissions = backup.permissions then return ()
      else throw (corrupt "undo receipt backup contract is inconsistent")
  | .absent, none, none => return ()
  | _, _, _ => throw (corrupt "undo receipt backup contract is inconsistent")

/-- The paths of a receipt in order; the bytes its backups add up to. -/
def validateReceiptPaths (transactionId : String) :
    Nat → Option String → Nat → List ReceiptPath → Except WorktreeError Nat
  | _, _, retained, [] => return retained
  | position, previous, retained, path :: rest => do
      validateReceiptPath crates transactionId position previous path
      let retained ← match path.backup with
        | none => pure retained
        | some backup =>
            (fromOption (checkedAdd retained backup.bytes)
              (corrupt "undo retained bytes overflow") : Except WorktreeError Nat)
      validateReceiptPaths transactionId (position + 1)
        (some (crates.portablePathKey path.path)) retained rest

def validateBody (body : ReceiptBody) (options : WorktreeOptions) : Except WorktreeError Unit := do
  if body.paths = [] || body.paths.length > options.limits.maxFiles then
    throw (corrupt "undo receipt path count is invalid")
  let retained ← validateReceiptPaths crates body.transactionId 0 none 0 body.paths
  if retained ≠ body.retainedBytes || snapshot crates body.paths true ≠ body.beforeFingerprint ||
      snapshot crates body.paths false ≠ body.afterFingerprint then
    throw (corrupt "undo receipt aggregate evidence is inconsistent")

def decodeReceipt (id : String) (options : WorktreeOptions) (bytes : Bytes) :
    Except WorktreeError StoredReceipt := do
  let envelope ← (crates.receipt.decode bytes).mapError fun _ =>
    corrupt "undo receipt JSON is invalid"
  if envelope.body.schema ≠ schema || envelope.body.transactionId ≠ id ||
      bodyChecksum crates envelope.body ≠ envelope.checksum then
    throw (corrupt "undo receipt identity or checksum is invalid")
  validateBody crates envelope.body options
  return ⟨envelope.body, envelope.checksum, bytes.length⟩

def readReceipt (file : Ino) (id : String) (options : WorktreeOptions) : Action StoredReceipt := do
  let metadata ← orElse (perform (.metadata file)) storeIo
  if metadata.kind ≠ .file || metadata.length > options.limits.maxJournalBytes then
    throw (corrupt "undo receipt is not a bounded regular file")
  let bytes ← orElse (perform (.read file (options.limits.maxJournalBytes + 1))) storeIo
  if bytes.length > options.limits.maxJournalBytes then
    throw (corrupt "undo receipt exceeds the configured byte bound")
  liftWorktree (decodeReceipt crates id options bytes)

def readExact (control : ControlDir) (id : String) (options : WorktreeOptions) :
    Action (Option StoredReceipt) := do
  match ← orElse (control.openUndoReceipt id) storeIo with
  | none => return none
  | some file => return some (← readReceipt crates file id options)

def inspect (control : ControlDir) (id : UndoId) (options : WorktreeOptions) :
    Action StoredReceipt := do
  let found ← readExact crates control id.value options
  liftWorktree (fromOption found
    (.new .undoNotFound .validate "the exact undo receipt does not exist"))

/-- The receipts one after the other, with the bytes counted so far. -/
def usageFrom (control : ControlDir) (options : WorktreeOptions) :
    Nat → List String → Action Nat
  | bytes, [] => return bytes
  | bytes, id :: rest => do
      let found ← readExact crates control id options
      let receipt ← liftWorktree (fromOption found
        (corrupt "an enumerated undo receipt vanished"))
      let bytes ← liftWorktree (fromOption
        ((checkedAdd bytes receipt.retainedBytes).bind fun value =>
          checkedAdd value receipt.storedBytes)
        (corrupt "undo store byte accounting overflowed"))
      if bytes > options.limits.maxTotalUndoBytes then
        throw (corrupt "undo store exceeds the configured byte bound")
      usageFrom control options bytes rest

def storeUsage (control : ControlDir) (options : WorktreeOptions) : Action UndoStoreUsage := do
  let ids ← orElse control.undoReceiptIds storeIo
  if ids.length > options.limits.maxUndoReceipts then
    throw (corrupt "undo receipt count exceeds the configured bound")
  return ⟨ids.length, ← usageFrom crates control options 0 ids⟩

/-! ### Writing a receipt -/

/-- A receipt that could not be written completely is removed again, if it can be. -/
def writeNew (control : ControlDir) (id : String) (bytes : Bytes) : Action Unit := do
  let file ← orElse (control.createUndoReceipt id) storeIo
  match ← ExceptT.lift (do perform (.write file bytes); perform (.syncFile file) : Io Unit).run with
  | .ok () => orElse control.sync storeIo
  | .error error => do
      let _ ← ExceptT.lift (control.removeUndoReceipt id).run
      throw (storeIo error)

def prepareRetention (transaction : PreparedWorktreeTransaction) (policy : UndoRetention) :
    Action StoredReceipt := do
  liftWorktree (validatePolicy policy transaction.options)
  let usage ← storeUsage crates transaction.control transaction.options
  let body ← liftWorktree (bodyFrom crates transaction)
  let checksum := bodyChecksum crates body
  let bytes := crates.receipt.encode ⟨body, checksum⟩
  let added := saturatingAdd body.retainedBytes bytes.length
  if usage.receipts + 1 > policy.maxReceipts ||
      usage.receipts + 1 > transaction.options.limits.maxUndoReceipts ||
      saturatingAdd usage.bytes added > policy.maxBytes ||
      saturatingAdd usage.bytes added > transaction.options.limits.maxTotalUndoBytes then
    throw (.new .undoStoreFull .commit "retained undo capacity is exhausted")
  writeNew transaction.control body.transactionId bytes
  return ⟨body, checksum, bytes.length⟩

/-! ### Moving and discarding backups -/

/-- Idempotently centralizes every retained backup named by a durable receipt. -/
def relocateBackups (control : ControlDir) (root : FsRoot) (receipt : StoredReceipt)
    (options : WorktreeOptions) : Action Unit :=
  receipt.paths.zipIdx.forM fun (path, position) => do
    match path.backupName, path.backup with
    | some name, some expected => do
        let located (message : String) (error : IoError) : WorktreeError :=
          ((((undoIo .recover message error).atPath path.path).atFile position).inTransaction
            receipt.id).requiringRecovery
        let access ← orElse (root.openTarget crates path.path)
          (located "failed to reopen a retained backup parent")
        orElse (control.retainBackupFrom crates.sha256 access name expected
            options.limits.maxSourceBytesPerFile)
          (located "failed to move retained backup into the state directory")
    | _, _ => return ()

def discardPath (control : ControlDir) (options : WorktreeOptions) (path : ReceiptPath)
    (position : Nat) : Action Nat :=
  match path.backupName with
  | none => return 0
  | some name => do
      let expected ← liftWorktree (fromOption path.backup
        (corrupt "receipt backup evidence is missing"))
      let actual ← orElse (control.backupEvidence crates.sha256 name
          options.limits.maxSourceBytesPerFile)
        fun error => ((undoIo .cleanup "failed to verify undo artifact" error).atPath
          path.path).atFile position
      if actual ≠ expected then
        throw (((corrupt "undo artifact does not match receipt evidence").atPath
          path.path).atFile position)
      let removed ← orElse (control.removeBackup name)
        fun error => ((undoIo .cleanup "failed to remove exact undo artifact" error).atPath
          path.path).atFile position
      return if removed then 1 else 0

def discardFrom (control : ControlDir) (options : WorktreeOptions) :
    List (ReceiptPath × Nat) → Action Nat
  | [] => return 0
  | (path, position) :: rest => do
      let removed ← discardPath crates control options path position
      return removed + (← discardFrom control options rest)

def discard (control : ControlDir) (receipt : StoredReceipt) (options : WorktreeOptions) :
    Action Nat := do
  let removed ← discardFrom crates control options receipt.paths.zipIdx
  orElse (control.removeUndoReceipt receipt.id) storeIo
  return removed

end

end Undo

end Worktree
