import Worktree.CrashLogic.Format
import Worktree.Crates
/-
The JSON of the stored types: fields in the order of their declaration, tags
first, optional fields of journals left out when there is nothing in them.
-/

namespace Worktree

open CrashLogic

namespace Json

/-! ### Objects -/

variable {α β : Type}

def close : Format Unit := .literal (ascii "\x7d")

/-- A field, and what comes after it. -/
def field (name : String) (format : Format α) (rest : Format β)
    (plain : Text.clean (ascii name) = true := by decide +kernel)
    (firm : rest.starts.all Text.solid = true := by decide +kernel) : Format (α × β) :=
  .pair (.after (ascii name) format plain) rest firm

def orNull (format : Format α)
    (different : format.starts.all (Text.apart (ascii "null")) = true := by decide +kernel) :
    Format (Option α) :=
  (Format.either (ascii "null") (.literal [] Format.clean_nil) format (by decide +kernel)
    different).convert
    (fun value => match value with
      | none => .inl ()
      | some value => .inr value)
    (fun found => found.elim (fun _ => none) some) fun value => by cases value <;> rfl

/-! ### Evidence -/

def sha256 : Format Sha256Hash :=
  Format.string.refine Sha256Hash.display Sha256Hash.parse Sha256Hash.parse_display

def identity : Format FileIdentity :=
  (field "\x7b\"device\":" .nat (field ",\"inode\":" .nat close)).convert
    (fun value => (value.device, value.inode, ())) (fun found => ⟨found.1, found.2.1⟩)
    fun _ => rfl

def permissions : Format PortablePermissions :=
  (field "\x7b\"readonly\":" .bool (field ",\"unix_mode\":" (orNull .nat) close)).convert
    (fun value => (value.readonly, value.unixMode, ())) (fun found => ⟨found.1, found.2.1⟩)
    fun _ => rfl

def present : Format PresentEvidence :=
  (field "\x7b\"sha256\":" sha256 (field ",\"bytes\":" .nat (field ",\"identity\":" identity
    (field ",\"permissions\":" permissions close)))).convert
    (fun value => (value.sha256, value.bytes, value.identity, value.permissions, ()))
    (fun found => ⟨found.1, found.2.1, found.2.2.1, found.2.2.2.1⟩) fun _ => rfl

/-- Nothing, or the evidence with nothing after it. -/
def slotCases : SlotEvidence → Unit ⊕ PresentEvidence × Unit
  | .absent => .inl ()
  | .present evidence => .inr (evidence, ())

def slot : Format SlotEvidence :=
  (Format.either (ascii "\x7b\"state\":\"absent\"") close
    (field "\x7b\"state\":\"present\",\"evidence\":" present close)).convert
    slotCases
    (fun found => found.elim (fun _ => .absent) fun found => .present found.1)
    fun value => by cases value <;> rfl

/-! ### The operation journal -/

def state : Format StateRecord :=
  (Format.either (ascii "\x7b\"state\":\"absent\"") close
    (field "\x7b\"state\":\"present\",\"sha256\":" .string (field ",\"bytes\":" .nat
      (field ",\"permissions\":" permissions
        (.optional (ascii ",\"identity\":") identity close))))).convert
    (fun value => match value with
      | .absent => .inl ()
      | .present sha256 bytes permissions identity =>
          .inr (sha256, bytes, permissions, identity, ()))
    (fun found => found.elim (fun _ => .absent) fun found =>
      .present found.1 found.2.1 found.2.2.1 found.2.2.2.1)
    fun value => by cases value <;> rfl

def outcomeCases : FinishOutcome → Unit ⊕ Unit ⊕ Unit
  | .committed => .inl ()
  | .rolledBack => .inr (.inl ())
  | .aborted => .inr (.inr ())

def outcome : Format FinishOutcome :=
  (Format.either (ascii "\"committed\"") (.literal [] Format.clean_nil)
    (.either (ascii "\"rolled_back\"") (.literal [] Format.clean_nil)
      (.literal (ascii "\"aborted\"")))).convert
    outcomeCases
    (fun found => found.elim (fun _ => .committed) fun found =>
      found.elim (fun _ => .rolledBack) fun _ => .aborted)
    fun value => by cases value <;> rfl

def header : Format (String × String × String × Nat × Nat × Unit) :=
  field ",\"transaction_id\":" .string (field ",\"contract_hash\":" .string
    (field ",\"operation\":" .string (field ",\"operation_count\":" .nat
      (field ",\"path_count\":" .nat close))))

def operation : Format (Nat × String × Option String × Option String × Option String ×
    Option String × Nat × Nat × Nat × Unit) :=
  field ",\"index\":" .nat (field ",\"kind\":" .string
    (.optional (ascii ",\"source_path\":") .string
      (.optional (ascii ",\"destination_path\":") .string
        (.optional (ascii ",\"old_sha256\":") .string
          (.optional (ascii ",\"new_sha256\":") .string
            (field ",\"bytes_before\":" .nat (field ",\"bytes_after\":" .nat
              (field ",\"edit_count\":" .nat close))))))))

def pathIntent : Format (Nat × String × StateRecord × StateRecord × Option String ×
    Option String × Unit) :=
  field ",\"index\":" .nat (field ",\"path\":" .string (field ",\"before\":" state
    (field ",\"after\":" state (.optional (ascii ",\"stage_name\":") .string
      (.optional (ascii ",\"backup_name\":") .string close)))))

def pathStaged : Format (Nat × Option FileIdentity × Option FileIdentity × Unit) :=
  field ",\"index\":" .nat (.optional (ascii ",\"stage_identity\":") identity
    (.optional (ascii ",\"backup_identity\":") identity close))

def indexed : Format (Nat × Unit) :=
  field ",\"index\":" .nat close

def record : Format Record :=
  (Format.either (ascii "\x7b\"type\":\"header\"") header
    (.either (ascii "\x7b\"type\":\"operation\"") operation
    (.either (ascii "\x7b\"type\":\"path_intent\"") pathIntent
    (.either (ascii "\x7b\"type\":\"path_staged\"") pathStaged
    (.either (ascii "\x7b\"type\":\"prepared\"")
      (field ",\"operation_count\":" .nat (field ",\"path_count\":" .nat close))
    (.either (ascii "\x7b\"type\":\"commit_intent\"") indexed
    (.either (ascii "\x7b\"type\":\"committed\"") indexed
    (.either (ascii "\x7b\"type\":\"rollback_intent\"") indexed
    (.either (ascii "\x7b\"type\":\"rolled_back\"") indexed
      (field "\x7b\"type\":\"finished\",\"outcome\":" outcome close)))))))))).convert
    (fun value => match value with
      | .header transactionId contractHash operation operationCount pathCount =>
          .inl (transactionId, contractHash, operation, operationCount, pathCount, ())
      | .operation index kind source destination oldSha256 newSha256 bytesBefore bytesAfter
          editCount =>
          .inr (.inl (index, kind, source, destination, oldSha256, newSha256, bytesBefore,
            bytesAfter, editCount, ()))
      | .pathIntent index path before after stageName backupName =>
          .inr (.inr (.inl (index, path, before, after, stageName, backupName, ())))
      | .pathStaged index stageIdentity backupIdentity =>
          .inr (.inr (.inr (.inl (index, stageIdentity, backupIdentity, ()))))
      | .prepared operationCount pathCount =>
          .inr (.inr (.inr (.inr (.inl (operationCount, pathCount, ())))))
      | .commitIntent index => .inr (.inr (.inr (.inr (.inr (.inl (index, ()))))))
      | .committed index => .inr (.inr (.inr (.inr (.inr (.inr (.inl (index, ())))))))
      | .rollbackIntent index =>
          .inr (.inr (.inr (.inr (.inr (.inr (.inr (.inl (index, ()))))))))
      | .rolledBack index =>
          .inr (.inr (.inr (.inr (.inr (.inr (.inr (.inr (.inl (index, ())))))))))
      | .finished outcome =>
          .inr (.inr (.inr (.inr (.inr (.inr (.inr (.inr (.inr (outcome, ()))))))))))
    (fun found => match found with
      | .inl (transactionId, contractHash, operation, operationCount, pathCount, _) =>
          .header transactionId contractHash operation operationCount pathCount
      | .inr (.inl (index, kind, source, destination, oldSha256, newSha256, bytesBefore,
          bytesAfter, editCount, _)) =>
          .operation index kind source destination oldSha256 newSha256 bytesBefore bytesAfter
            editCount
      | .inr (.inr (.inl (index, path, before, after, stageName, backupName, _))) =>
          .pathIntent index path before after stageName backupName
      | .inr (.inr (.inr (.inl (index, stageIdentity, backupIdentity, _)))) =>
          .pathStaged index stageIdentity backupIdentity
      | .inr (.inr (.inr (.inr (.inl (operationCount, pathCount, _))))) =>
          .prepared operationCount pathCount
      | .inr (.inr (.inr (.inr (.inr (.inl (index, _)))))) => .commitIntent index
      | .inr (.inr (.inr (.inr (.inr (.inr (.inl (index, _))))))) => .committed index
      | .inr (.inr (.inr (.inr (.inr (.inr (.inr (.inl (index, _)))))))) => .rollbackIntent index
      | .inr (.inr (.inr (.inr (.inr (.inr (.inr (.inr (.inl (index, _))))))))) =>
          .rolledBack index
      | .inr (.inr (.inr (.inr (.inr (.inr (.inr (.inr (.inr (outcome, _))))))))) =>
          .finished outcome)
    fun value => by cases value <;> rfl

def stored : Format Stored :=
  (field "\x7b\"schema\":" .string (field ",\"seq\":" .nat (field ",\"record\":" record
    (field ",\"checksum\":" .string close)))).convert
    (fun value => (value.schema, value.seq, value.record, value.checksum, ()))
    (fun found => ⟨found.1, found.2.1, found.2.2.1, found.2.2.2.1⟩) fun _ => rfl

/-! ### The journal of edit plans -/

def preparedFile : Format (Nat × String × String × String × Nat × Nat × Nat × String × String ×
    Unit) :=
  field ",\"index\":" .nat (field ",\"path\":" .string (field ",\"old_sha256\":" .string
    (field ",\"new_sha256\":" .string (field ",\"bytes_before\":" .nat
      (field ",\"bytes_after\":" .nat (field ",\"edit_count\":" .nat
        (field ",\"stage_name\":" .string (field ",\"backup_name\":" .string close))))))))

def editRecord : Format JournalRecord :=
  (Format.either (ascii "\x7b\"type\":\"header\"")
      (field ",\"transaction_id\":" .string (field ",\"contract_hash\":" .string
        (field ",\"file_count\":" .nat close)))
    (.either (ascii "\x7b\"type\":\"prepared_file\"") preparedFile
    (.either (ascii "\x7b\"type\":\"prepared\"") (field ",\"file_count\":" .nat close)
    (.either (ascii "\x7b\"type\":\"commit_intent\"") indexed
    (.either (ascii "\x7b\"type\":\"committed\"") indexed
    (.either (ascii "\x7b\"type\":\"rollback_intent\"") indexed
    (.either (ascii "\x7b\"type\":\"rolled_back\"") indexed
      (field "\x7b\"type\":\"finished\",\"outcome\":" outcome close)))))))).convert
    (fun value => match value with
      | .header transactionId contractHash fileCount =>
          .inl (transactionId, contractHash, fileCount, ())
      | .preparedFile index path oldSha256 newSha256 bytesBefore bytesAfter editCount stageName
          backupName =>
          .inr (.inl (index, path, oldSha256, newSha256, bytesBefore, bytesAfter, editCount,
            stageName, backupName, ()))
      | .prepared fileCount => .inr (.inr (.inl (fileCount, ())))
      | .commitIntent index => .inr (.inr (.inr (.inl (index, ()))))
      | .committed index => .inr (.inr (.inr (.inr (.inl (index, ())))))
      | .rollbackIntent index => .inr (.inr (.inr (.inr (.inr (.inl (index, ()))))))
      | .rolledBack index => .inr (.inr (.inr (.inr (.inr (.inr (.inl (index, ())))))))
      | .finished outcome => .inr (.inr (.inr (.inr (.inr (.inr (.inr (outcome, ()))))))))
    (fun found => match found with
      | .inl (transactionId, contractHash, fileCount, _) =>
          .header transactionId contractHash fileCount
      | .inr (.inl (index, path, oldSha256, newSha256, bytesBefore, bytesAfter, editCount,
          stageName, backupName, _)) =>
          .preparedFile index path oldSha256 newSha256 bytesBefore bytesAfter editCount stageName
            backupName
      | .inr (.inr (.inl (fileCount, _))) => .prepared fileCount
      | .inr (.inr (.inr (.inl (index, _)))) => .commitIntent index
      | .inr (.inr (.inr (.inr (.inl (index, _))))) => .committed index
      | .inr (.inr (.inr (.inr (.inr (.inl (index, _)))))) => .rollbackIntent index
      | .inr (.inr (.inr (.inr (.inr (.inr (.inl (index, _))))))) => .rolledBack index
      | .inr (.inr (.inr (.inr (.inr (.inr (.inr (outcome, _))))))) => .finished outcome)
    fun value => by cases value <;> rfl

def storedEdit : Format StoredEdit :=
  (field "\x7b\"schema\":" .string (field ",\"seq\":" .nat (field ",\"record\":" editRecord
    (field ",\"checksum\":" .string close)))).convert
    (fun value => (value.schema, value.seq, value.record, value.checksum, ()))
    (fun found => ⟨found.1, found.2.1, found.2.2.1, found.2.2.2.1⟩) fun _ => rfl

/-! ### Receipts -/

def receiptPath : Format ReceiptPath :=
  (field "\x7b\"index\":" .nat (field ",\"path\":" .string (field ",\"before\":" slot
    (field ",\"after\":" slot (field ",\"backup_name\":" (orNull .string)
      (field ",\"backup\":" (orNull present) close)))))).convert
    (fun value => (value.index, value.path, value.before, value.after, value.backupName,
      value.backup, ()))
    (fun found => ⟨found.1, found.2.1, found.2.2.1, found.2.2.2.1, found.2.2.2.2.1,
      found.2.2.2.2.2.1⟩) fun _ => rfl

def receiptBody : Format ReceiptBody :=
  (field "\x7b\"schema\":" .string (field ",\"transaction_id\":" .string
    (field ",\"plan_fingerprint\":" sha256 (field ",\"before_fingerprint\":" sha256
      (field ",\"after_fingerprint\":" sha256 (field ",\"retained_bytes\":" .nat
        (field ",\"paths\":" (.list receiptPath) close))))))).convert
    (fun value => (value.schema, value.transactionId, value.planFingerprint,
      value.beforeFingerprint, value.afterFingerprint, value.retainedBytes, value.paths, ()))
    (fun found => ⟨found.1, found.2.1, found.2.2.1, found.2.2.2.1, found.2.2.2.2.1,
      found.2.2.2.2.2.1, found.2.2.2.2.2.2.1⟩) fun _ => rfl

def receipt : Format ReceiptEnvelope :=
  (field "\x7b\"body\":" receiptBody (field ",\"checksum\":" sha256 close)).convert
    (fun value => (value.body, value.checksum, ())) (fun found => ⟨found.1, found.2.1⟩)
    fun _ => rfl

def snapshotPath : Format (String × SlotEvidence) :=
  (field "[" .string (field "," slot (.literal (ascii "]")))).convert
    (fun value => (value.1, value.2, ())) (fun found => (found.1, found.2.1)) fun _ => rfl

def snapshot : Format (String × List (String × SlotEvidence)) :=
  (field "[" .string (field "," (.list snapshotPath) (.literal (ascii "]")))).convert
    (fun value => (value.1, value.2, ())) (fun found => (found.1, found.2.1)) fun _ => rfl

end Json

end Worktree
