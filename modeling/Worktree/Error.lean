/-
Structured worktree errors with stable routing fields.

An error carries what the program routes on: the code, the phase, the place and
whether a journal was left behind that must be recovered first.
-/

namespace Worktree

inductive TransactionPhase
  | «open»
  | validate
  | lock
  | dryRun
  | prepare
  | stage
  | commit
  | rollback
  | recover
  | cleanup
  deriving DecidableEq, Repr

inductive WorktreeErrorCode
  | invalidRoot
  | invalidOptions
  | rootBusy
  | recoveryRequired
  | invalidPlan
  | operationConflict
  | pathExists
  | pathMissing
  | reservedPath
  | pathEscape
  | symlinkNotAllowed
  | crossFilesystem
  | notRegularFile
  | hardlinkNotAllowed
  | readOnlyFile
  | sourceTooLarge
  | transactionTooLarge
  | nonUtf8Source
  | sourceHashMismatch
  | concurrentModification
  | editRejected
  | stageFailed
  | durabilityFailed
  | commitFailed
  | rollbackFailed
  | journalCorrupt
  | undoNotFound
  | undoConflict
  | undoStoreFull
  | undoCorrupt
  | undoFailed
  | workerPanicked
  | cancelled
  | io
  deriving DecidableEq, Repr

def TransactionPhase.asStr : TransactionPhase → String
  | .«open» => "OPEN"
  | .validate => "VALIDATE"
  | .lock => "LOCK"
  | .dryRun => "DRY_RUN"
  | .prepare => "PREPARE"
  | .stage => "STAGE"
  | .commit => "COMMIT"
  | .rollback => "ROLLBACK"
  | .recover => "RECOVER"
  | .cleanup => "CLEANUP"

def WorktreeErrorCode.asStr : WorktreeErrorCode → String
  | .invalidRoot => "INVALID_ROOT"
  | .invalidOptions => "INVALID_OPTIONS"
  | .rootBusy => "ROOT_BUSY"
  | .recoveryRequired => "RECOVERY_REQUIRED"
  | .invalidPlan => "INVALID_PLAN"
  | .operationConflict => "OPERATION_CONFLICT"
  | .pathExists => "PATH_EXISTS"
  | .pathMissing => "PATH_MISSING"
  | .reservedPath => "RESERVED_PATH"
  | .pathEscape => "PATH_ESCAPE"
  | .symlinkNotAllowed => "SYMLINK_NOT_ALLOWED"
  | .crossFilesystem => "CROSS_FILESYSTEM"
  | .notRegularFile => "NOT_REGULAR_FILE"
  | .hardlinkNotAllowed => "HARDLINK_NOT_ALLOWED"
  | .readOnlyFile => "READ_ONLY_FILE"
  | .sourceTooLarge => "SOURCE_TOO_LARGE"
  | .transactionTooLarge => "TRANSACTION_TOO_LARGE"
  | .nonUtf8Source => "NON_UTF8_SOURCE"
  | .sourceHashMismatch => "SOURCE_HASH_MISMATCH"
  | .concurrentModification => "CONCURRENT_MODIFICATION"
  | .editRejected => "EDIT_REJECTED"
  | .stageFailed => "STAGE_FAILED"
  | .durabilityFailed => "DURABILITY_FAILED"
  | .commitFailed => "COMMIT_FAILED"
  | .rollbackFailed => "ROLLBACK_FAILED"
  | .journalCorrupt => "JOURNAL_CORRUPT"
  | .undoNotFound => "UNDO_NOT_FOUND"
  | .undoConflict => "UNDO_CONFLICT"
  | .undoStoreFull => "UNDO_STORE_FULL"
  | .undoCorrupt => "UNDO_CORRUPT"
  | .undoFailed => "UNDO_FAILED"
  | .workerPanicked => "WORKER_PANICKED"
  | .cancelled => "CANCELLED"
  | .io => "IO"

structure WorktreeError where
  code : WorktreeErrorCode
  phase : TransactionPhase
  message : String
  path : Option String
  fileIndex : Option Nat
  transactionId : Option String
  recoveryRequired : Bool
  source : Option String
  deriving DecidableEq, Repr

namespace WorktreeError

def new (code : WorktreeErrorCode) (phase : TransactionPhase) (message : String) :
    WorktreeError :=
  { code
    phase
    message
    path := none
    fileIndex := none
    transactionId := none
    recoveryRequired := code = .recoveryRequired || code = .rollbackFailed
    source := none }

def withSource (code : WorktreeErrorCode) (phase : TransactionPhase) (message source : String) :
    WorktreeError :=
  { new code phase message with source := some source }

def atPath (error : WorktreeError) (path : String) : WorktreeError :=
  { error with path := some path }

def atFile (error : WorktreeError) (fileIndex : Nat) : WorktreeError :=
  { error with fileIndex := some fileIndex }

def inTransaction (error : WorktreeError) (transactionId : String) : WorktreeError :=
  { error with transactionId := some transactionId }

def requiringRecovery (error : WorktreeError) : WorktreeError :=
  { error with recoveryRequired := true }

/-- How the error reads in the message of another. -/
def display (error : WorktreeError) : String :=
  error.code.asStr ++ " during " ++ error.phase.asStr ++
    error.path.elim "" (" at " ++ ·) ++
    error.fileIndex.elim "" (fun index => " [file " ++ toString index ++ "]") ++
    ": " ++ error.message

end WorktreeError

theorem bind_ok_iff {ε α β : Type} {result : Except ε α} {next : α → Except ε β} {value : β} :
    (result >>= next) = .ok value ↔ ∃ found, result = .ok found ∧ next found = .ok value := by
  cases result with
  | ok found =>
      constructor
      · exact fun same => ⟨found, rfl, same⟩
      · rintro ⟨_, equal, same⟩
        cases equal
        exact same
  | error error =>
      constructor
      · intro impossible
        cases impossible
      · rintro ⟨_, impossible, _⟩
        cases impossible

end Worktree
