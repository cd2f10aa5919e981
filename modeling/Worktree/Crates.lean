import Worktree.Journal.Record
import Worktree.Options
/-
What the program takes from other crates: the digest, the JSON encoding, and
the plan contract with its edits. Each function is a parameter; what its
documentation promises, and the program relies on, stands beside it.
-/

namespace Worktree

/-! ### Plans -/

/-- Files are created writable, `0o755` when marked executable. -/
structure CreatePermissions where
  executable : Bool
  deriving DecidableEq, Repr

def CreatePermissions.readonly (_ : CreatePermissions) : Bool := false

def CreatePermissions.unixMode (permissions : CreatePermissions) : Nat :=
  if permissions.executable then 0o755 else 0o644

/-- Text edits are passed on, never looked into. -/
structure FileEdit (T : Type) where
  path : String
  sha256 : String
  edits : List T

structure CreateFile where
  path : String
  contents : Bytes
  permissions : CreatePermissions

structure DeleteFile where
  path : String
  expectedSha256 : String

structure RenameFile (T : Type) where
  «from» : String
  «to» : String
  expectedSourceSha256 : String
  edits : List T

inductive WorktreeOperation (T : Type)
  | modify (file : FileEdit T)
  | create (file : CreateFile)
  | delete (file : DeleteFile)
  | rename (file : RenameFile T)

structure WorktreePlan (T : Type) where
  operation : String
  operations : List (WorktreeOperation T)

structure RefactorPlanLimits where
  maxOperations : Nat
  maxPaths : Nat
  maxPathBytes : Nat
  maxOperationBytes : Nat
  maxEditsPerFile : Nat
  maxTotalEdits : Nat
  maxCreateBytesPerFile : Nat
  maxTotalCreateBytes : Nat
  maxTotalTextBytes : Nat
  maxExtensionBytes : Nat
  maxExtensionNodes : Nat
  maxExtensionDepth : Nat
  maxEvidenceEntries : Nat
  maxEvidenceTextBytes : Nat
  maxCodeBytes : Nat

inductive PlanErrorCode
  | operationConflict
  | unsafePath
  | other
  deriving DecidableEq, Repr

structure PlanError where
  code : PlanErrorCode
  path : Option String
  operationIndex : Option Nat
  message : String

structure ApplyLimits where
  maxSourceBytes : Nat
  maxEdits : Nat
  maxOutputBytes : Nat

/-- The output of a checked sequence of edits, in the pieces it is written in. -/
structure PreparedEdits where
  chunks : List Bytes
  edits : Nat

def PreparedEdits.bytes (prepared : PreparedEdits) : Bytes :=
  prepared.chunks.flatten

/-! ### Encodings -/

/-- A JSON library at one type. -/
structure JsonCodec (α : Type) where
  encode : α → Bytes
  decode : Bytes → Except String α
  decode_encode : ∀ value, decode (encode value) = .ok value
  no_newline : ∀ value, (10 : UInt8) ∉ encode value
  encode_ne_nil : ∀ value, encode value ≠ []

def utf8 (text : String) : Bytes :=
  text.toUTF8.data.toList

/-- Little-endian bytes of a 64-bit number. -/
def leBytes (value : Nat) : Bytes :=
  (List.range 8).map fun index => UInt8.ofNat (value / 256 ^ index % 256)

def digits (value : Nat) : Nat :=
  (Nat.toDigits 10 value).length

structure Crates (T : Type) where
  availableParallelism : Nat
  sha256 : Bytes → Sha256Hash
  record : JsonCodec Record
  stored : JsonCodec Stored
  editRecord : JsonCodec JournalRecord
  storedEdit : JsonCodec StoredEdit
  receiptBody : JsonCodec ReceiptBody
  receipt : JsonCodec ReceiptEnvelope
  snapshot : JsonCodec (String × List (String × SlotEvidence))
  portablePathKey : String → String
  validatePlanPath : String → Nat → Except String Unit
  validateExecutorPlan : WorktreePlan T → RefactorPlanLimits → Except PlanError Sha256Hash
  prepareEdits : ApplyLimits → Bytes → List T → Except String PreparedEdits
  /-- A line grows with its record and with the digits of its number only. -/
  storedCost : String → Record → Nat
  stored_length : ∀ schema seq record (checksum : Sha256Hash),
    (stored.encode ⟨schema, seq, record, checksum.display⟩).length =
      storedCost schema record + digits seq
  storedCost_finished : ∀ schema outcome,
    storedCost schema (.finished outcome) ≤ storedCost schema (.finished .rolledBack)
  executor_operation : ∀ plan limits fingerprint,
    validateExecutorPlan plan limits = .ok fingerprint →
      plan.operation ≠ "" ∧ plan.operation.utf8ByteSize ≤ limits.maxOperationBytes
  executor_operations : ∀ plan limits fingerprint,
    validateExecutorPlan plan limits = .ok fingerprint →
      plan.operations ≠ [] ∧ plan.operations.length ≤ limits.maxOperations
  edits_bounded : ∀ limits source edits prepared,
    prepareEdits limits source edits = .ok prepared →
      prepared.edits ≤ limits.maxEdits ∧ prepared.bytes.length ≤ limits.maxOutputBytes

end Worktree
