import Worktree.Plan.Metadata
import Worktree.Crates.Json
import Worktree.Crates.Sha256
/-
One choice of the crates: SHA-256 as it is, JSON with every control character
escaped by its code, paths that are their own keys, and plans that are accepted
when they are not empty.
-/

namespace Worktree

open CrashLogic

/-- A codec of whole inputs. -/
def codec {α : Type} (format : Format α) (someText : ∀ value, format.print value ≠ []) :
    JsonCodec α where
  encode := format.print
  decode := fun input =>
    match format.parse input with
    | some (value, []) => .ok value
    | _ => .error "invalid JSON"
  decode_encode := by
    intro value
    have parsed := format.parses value [] rfl
    rw [List.append_nil] at parsed
    rw [parsed]
  no_newline := fun value => Text.clean_iff.mp (format.cleans value)
  encode_ne_nil := someText

theorem print_ne_nil {α : Type} {format : Format α}
    (firm : format.starts.all Text.solid = true) (value : α) : format.print value ≠ [] := by
  intro empty
  obtain ⟨start, among, begins⟩ := format.begins value
  rw [empty, List.prefix_nil] at begins
  have solid := List.all_eq_true.mp firm start among
  rw [begins] at solid
  cases solid

/-! ### How long a line is -/

theorem hexDigit_length (value : Nat) (small : value < 16) :
    ((String.utf8EncodeChar (Sha256Hash.hexDigit value)).flatMap Format.escape).length = 1 := by
  have all : ∀ value : Fin 16,
      ((String.utf8EncodeChar (Sha256Hash.hexDigit value)).flatMap Format.escape).length = 1 := by
    decide +kernel
  exact all ⟨value, small⟩

theorem hexOf_length (bytes : Bytes) :
    (((Sha256Hash.hexOf bytes).flatMap String.utf8EncodeChar).flatMap Format.escape).length =
      2 * bytes.length := by
  induction bytes with
  | nil => rfl
  | cons byte bytes ih =>
      have split : Sha256Hash.hexOf (byte :: bytes) = Sha256Hash.hexDigit (byte.toNat / 16) ::
          Sha256Hash.hexDigit (byte.toNat % 16) :: Sha256Hash.hexOf bytes := rfl
      have bound := byte.toNat_lt
      have high := hexDigit_length (byte.toNat / 16) (by omega)
      have low := hexDigit_length (byte.toNat % 16) (by omega)
      rw [split, List.flatMap_cons, List.flatMap_cons, List.flatMap_append, List.flatMap_append,
        List.length_append, List.length_append, high, low, ih, List.length_cons]
      omega

/-- A digest takes sixty-four bytes between its quotes. -/
theorem display_length (hash : Sha256Hash) : (Format.string.print hash.display).length = 66 := by
  have text : Format.utf8Text hash.display =
      (Sha256Hash.hexOf hash.bytes).flatMap String.utf8EncodeChar := by
    unfold Format.utf8Text Sha256Hash.display String.toUTF8
    rw [String.toByteArray_ofList, List.utf8Encode, List.data_toByteArray]
  change (34 :: ((Format.utf8Text hash.display).flatMap Format.escape ++ [34])).length = 66
  rw [text, List.length_cons, List.length_append, hexOf_length, hash.sized]
  rfl

def storedCost (schema : String) (record : Record) : Nat :=
  106 + (Format.string.print schema).length + (Json.record.print record).length

theorem decimal_length (value : Nat) : (Format.decimal value).length = digits value :=
  List.length_map _

theorem stored_length (schema : String) (seq : Nat) (record : Record) (checksum : Sha256Hash) :
    (Json.stored.print ⟨schema, seq, record, checksum.display⟩).length =
      storedCost schema record + digits seq := by
  have schemaKey : (ascii "\x7b\"schema\":").length = 10 := by decide +kernel
  have seqKey : (ascii ",\"seq\":").length = 7 := by decide +kernel
  have recordKey : (ascii ",\"record\":").length = 10 := by decide +kernel
  have checksumKey : (ascii ",\"checksum\":").length = 12 := by decide +kernel
  change ((ascii "\x7b\"schema\":" ++ Format.string.print schema) ++
    ((ascii ",\"seq\":" ++ Format.decimal seq) ++ ((ascii ",\"record\":" ++
      Json.record.print record) ++ ((ascii ",\"checksum\":" ++
        Format.string.print checksum.display) ++ ascii "\x7d")))).length = _
  have closeKey : (ascii "\x7d").length = 1 := by decide +kernel
  simp only [List.length_append, schemaKey, seqKey, recordKey, checksumKey, closeKey,
    display_length, decimal_length]
  unfold storedCost
  omega

theorem storedCost_finished (schema : String) (outcome : FinishOutcome) :
    storedCost schema (.finished outcome) ≤ storedCost schema (.finished .rolledBack) := by
  have all : (Json.record.print (.finished outcome)).length ≤
      (Json.record.print (.finished .rolledBack)).length := by
    cases outcome <;> decide +kernel
  unfold storedCost
  omega

/-! ### The choice -/

/-- Edits are refused: the plans of the runs here only create, delete and rename. -/
def plainCrates : Crates Unit where
  availableParallelism := 1
  sha256 := Sha256.digest
  record := codec Json.record (print_ne_nil (by decide +kernel))
  stored := codec Json.stored (print_ne_nil (by decide +kernel))
  editRecord := codec Json.editRecord (print_ne_nil (by decide +kernel))
  storedEdit := codec Json.storedEdit (print_ne_nil (by decide +kernel))
  receiptBody := codec Json.receiptBody (print_ne_nil (by decide +kernel))
  receipt := codec Json.receipt (print_ne_nil (by decide +kernel))
  snapshot := codec Json.snapshot (print_ne_nil (by decide +kernel))
  portablePathKey := id
  validatePlanPath := fun _ _ => .ok ()
  validateExecutorPlan := fun plan limits =>
    if plan.operation ≠ "" ∧ plan.operation.utf8ByteSize ≤ limits.maxOperationBytes ∧
        plan.operations ≠ [] ∧ plan.operations.length ≤ limits.maxOperations then
      .ok (Sha256.digest (utf8 plan.operation))
    else .error ⟨.other, none, none, "invalid plan"⟩
  prepareEdits := fun _ _ _ => .error "no edits"
  storedCost := storedCost
  stored_length := stored_length
  storedCost_finished := storedCost_finished
  executor_operation := by
    intro plan limits fingerprint accepted
    split at accepted
    · next valid => exact ⟨valid.1, valid.2.1⟩
    · cases accepted
  executor_operations := by
    intro plan limits fingerprint accepted
    split at accepted
    · next valid => exact valid.2.2
    · cases accepted
  edits_bounded := by
    intro limits source edits prepared impossible
    cases impossible

/-- Edit plans without extensions; what a plan is encoded to is its operation. -/
def plainEditCrates : EditCrates Unit where
  toCrates := plainCrates
  editExtensions := fun _ => []
  encodeExtensions := fun _ => []
  encodePlan := fun plan => utf8 plan.operation
  validateWith := fun plan limits =>
    if plan.files.length ≤ limits.maxFiles then .ok () else .error "too many files"
  files_bounded := by
    intro plan limits accepted
    split at accepted
    · next few => exact few
    · cases accepted

def plainOptions : WorktreeOptions := ⟨.default, 1⟩

/-- A file system with these entries, and nobody at work in it. -/
def World.tree (entries : List (Slot × Ino)) (inodes : Ino → Inode) : World :=
  { table := entries.foldr (fun entry table => table.insert entry.1 entry.2) ∅
    inodes
    root := 0
    spare := []
    entropy := []
    locks := [] }

end Worktree
