import Worktree.Filesystem.Control
import Worktree.Journal.Writer
import Worktree.Plan.Compile
import Worktree.Scheduler
/-
What flows between the phases of an operation transaction: projected paths, the
staged paths made of them, and the prepared transaction that holds the lock.
-/

namespace Worktree

open CrashLogic

inductive ProjectedInput
  | absent
  | present (source : Bytes) (evidence : PresentEvidence)
  deriving DecidableEq

def ProjectedInput.evidence : ProjectedInput → SlotEvidence
  | .absent => .absent
  | .present _ evidence => .present evidence

def ProjectedInput.source : ProjectedInput → Option Bytes
  | .absent => none
  | .present source _ => some source

inductive OutputRecipe (T : Type)
  | exact (source : Bytes)
  | edited (source : Bytes) (edits : List T)

structure ProjectedPresent (T : Type) where
  recipe : OutputRecipe T
  sha256 : Sha256Hash
  bytes : Nat
  permissions : PortablePermissions
  editCount : Nat

inductive ProjectedOutput (T : Type)
  | absent
  | present (output : ProjectedPresent T)

structure ProjectedPath (T : Type) where
  stableIndex : Nat
  path : String
  access : TargetAccess
  before : ProjectedInput
  after : ProjectedOutput T

inductive OperationKind
  | modify
  | create
  | delete
  | rename
  deriving DecidableEq, Repr

def OperationKind.asStr : OperationKind → String
  | .modify => "MODIFY"
  | .create => "CREATE"
  | .delete => "DELETE"
  | .rename => "RENAME"

/-- Before and after evidence for one logical operation. -/
structure OperationChange where
  kind : OperationKind
  sourcePath : Option String
  destinationPath : Option String
  oldSha256 : Option Sha256Hash
  newSha256 : Option Sha256Hash
  bytesBefore : Nat
  bytesAfter : Nat
  editsApplied : Nat
  deriving DecidableEq

structure ProjectedPlan (T : Type) where
  operation : String
  operations : List OperationChange
  paths : List (ProjectedPath T)

structure WorktreeDryRunReport where
  operation : String
  files : List OperationChange
  touchedPaths : Nat
  deriving DecidableEq

structure WorktreeApplyReport where
  transactionId : String
  operation : String
  files : List OperationChange
  touchedPaths : Nat
  deriving DecidableEq

structure AbortReport where
  transactionId : String
  preparedFiles : Nat
  artifactsRemoved : Nat
  deriving DecidableEq

/-- Before and after evidence for one edited file. -/
structure FileChange where
  path : String
  oldSha256 : Sha256Hash
  newSha256 : Sha256Hash
  bytesBefore : Nat
  bytesAfter : Nat
  editsApplied : Nat
  deriving DecidableEq

inductive RecoveryAction
  | noPendingTransaction
  | discardedStaging
  | rolledBack
  | finishedCommitCleanup
  deriving DecidableEq, Repr

structure RecoveryReport where
  transactionId : Option String
  action : RecoveryAction
  files : List FileChange
  artifactsRemoved : Nat
  deriving DecidableEq

structure StagedPath where
  stableIndex : Nat
  path : String
  access : TargetAccess
  before : SlotEvidence
  after : SlotEvidence
  backup : Option PresentEvidence
  stageName : Option String
  backupName : Option String
  deriving DecidableEq

/-- A durably staged transaction that holds the root lock. -/
structure PreparedWorktreeTransaction where
  transactionId : String
  contractHash : Sha256Hash
  operation : String
  preview : WorktreeDryRunReport
  operations : List OperationChange
  paths : List StagedPath
  options : WorktreeOptions
  root : FsRoot
  journal : Writer
  control : ControlDir
  lock : Ino

/-- Preparation may start pools of workers; everything after it is sequential. -/
abbrev Planning := ExceptT WorktreeError (Task (Phase FsOp))

def Action.planning {α : Type} (action : Action α) : Planning α :=
  ExceptT.mk action.run.phase

def liftWorktree {α : Type} (result : Except WorktreeError α) : Action α :=
  ExceptT.mk (pure result)

def fromOption {ε α : Type} (value : Option α) (error : ε) : Except ε α :=
  value.elim (.error error) .ok

theorem fromOption_ok_iff {ε α : Type} {value : Option α} {error : ε} {found : α} :
    fromOption value error = .ok found ↔ value = some found := by
  cases value <;> simp [fromOption]

def containsText (text part : String) : Bool :=
  text.toList.tails.any fun rest => part.toList.isPrefixOf rest

end Worktree
