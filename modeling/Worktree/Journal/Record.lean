import Worktree.Evidence
/-
The records of the three journals and the receipts of retained commits, as they
are stored: hashes in hexadecimal, absent optional fields left out.
-/

namespace Worktree

inductive FinishOutcome
  | committed
  | rolledBack
  | aborted
  deriving DecidableEq, Repr

/-! ### The operation journal and the undo journal -/

inductive StateRecord
  | absent
  | present (sha256 : String) (bytes : Nat) (permissions : PortablePermissions)
      (identity : Option FileIdentity)
  deriving DecidableEq

inductive Record
  | header (transactionId contractHash operation : String) (operationCount pathCount : Nat)
  | operation (index : Nat) (kind : String) (sourcePath destinationPath : Option String)
      (oldSha256 newSha256 : Option String) (bytesBefore bytesAfter editCount : Nat)
  | pathIntent (index : Nat) (path : String) (before after : StateRecord)
      (stageName backupName : Option String)
  | pathStaged (index : Nat) (stageIdentity backupIdentity : Option FileIdentity)
  | prepared (operationCount pathCount : Nat)
  | commitIntent (index : Nat)
  | committed (index : Nat)
  | rollbackIntent (index : Nat)
  | rolledBack (index : Nat)
  | finished (outcome : FinishOutcome)
  deriving DecidableEq

/-- One line of an operation or undo journal. -/
structure Stored where
  schema : String
  seq : Nat
  record : Record
  checksum : String
  deriving DecidableEq

/-! ### The journal of edit plans -/

inductive JournalRecord
  | header (transactionId contractHash : String) (fileCount : Nat)
  | preparedFile (index : Nat) (path oldSha256 newSha256 : String)
      (bytesBefore bytesAfter editCount : Nat) (stageName backupName : String)
  | prepared (fileCount : Nat)
  | commitIntent (index : Nat)
  | committed (index : Nat)
  | rollbackIntent (index : Nat)
  | rolledBack (index : Nat)
  | finished (outcome : FinishOutcome)
  deriving DecidableEq

structure StoredEdit where
  schema : String
  seq : Nat
  record : JournalRecord
  checksum : String
  deriving DecidableEq

/-! ### Undo receipts -/

structure ReceiptPath where
  index : Nat
  path : String
  before : SlotEvidence
  after : SlotEvidence
  backupName : Option String
  backup : Option PresentEvidence
  deriving DecidableEq

structure ReceiptBody where
  schema : String
  transactionId : String
  planFingerprint : Sha256Hash
  beforeFingerprint : Sha256Hash
  afterFingerprint : Sha256Hash
  retainedBytes : Nat
  paths : List ReceiptPath
  deriving DecidableEq

structure ReceiptEnvelope where
  body : ReceiptBody
  checksum : Sha256Hash
  deriving DecidableEq

end Worktree
