import Worktree.Operation.Projection
import Worktree.Plan.Metadata
import Worktree.Transaction.Plan
/-
Projecting an edit plan: every target is opened, probed and snapshotted, and its
output computed from the snapshot before anything is written.
-/

namespace Worktree

open CrashLogic

namespace Edit

/-! ### Errors -/

def fsError (phase : TransactionPhase) (path : String) (index : Nat) (message : String)
    (source : IoError) : WorktreeError :=
  let detail := source.message
  let code : WorktreeErrorCode :=
    if containsText detail "reserved" || containsText detail "state namespace" then
      .reservedPath
    else if containsText detail "symbolic link" || containsText detail "reparse" then
      .symlinkNotAllowed
    else if containsText detail "crosses" then .crossFilesystem
    else if containsText detail "not a regular file" then .notRegularFile
    else if containsText detail "hard-linked" then .hardlinkNotAllowed
    else if containsText detail "read-only" then .readOnlyFile
    else if containsText detail "byte limit" || containsText detail "exceeds" then
      .sourceTooLarge
    else .io
  ((WorktreeError.withSource code phase message source.message).atPath path).atFile index

def journalError (phase : TransactionPhase) (message : String) (source : JournalError) :
    WorktreeError :=
  .withSource .journalCorrupt phase message source

def tooLargePlan (message : String) : WorktreeError :=
  .new .transactionTooLarge .validate message

/-! ### Files -/

/-- A source with the evidence of its output. -/
structure ProjectedFile where
  source : Bytes
  sourceHash : Sha256Hash
  outputHash : Sha256Hash
  bytesBefore : Nat
  bytesAfter : Nat
  editCount : Nat
  deriving DecidableEq

structure PlannedTarget (T : Type) where
  originalIndex : Nat
  file : FileEdit T
  access : TargetAccess
  identity : FileIdentity

structure ProjectedTarget (T : Type) where
  originalIndex : Nat
  file : FileEdit T
  access : TargetAccess
  identity : FileIdentity
  permissions : PortablePermissions
  projected : ProjectedFile

section

variable {T : Type} (crates : EditCrates T)

def validateLocalLimits (file : FileEdit T) (source : Bytes) (limits : WorktreeLimits) :
    Except WorktreeError Unit := do
  if source.length > limits.maxSourceBytesPerFile then
    throw ((WorktreeError.new .sourceTooLarge .prepare
      ("source has " ++ toString source.length ++ " bytes, exceeding the " ++
        toString limits.maxSourceBytesPerFile ++ "-byte per-file limit")).atPath file.path)
  if file.edits.isEmpty || file.edits.length > limits.maxEditsPerFile then
    throw ((WorktreeError.new .invalidPlan .validate
      ("file must contain between 1 and " ++ toString limits.maxEditsPerFile ++
        " edits")).atPath file.path)

/-- The edits of a file, checked against its source. -/
def preparedEdits (file : FileEdit T) (source : Bytes) (options : WorktreeOptions) :
    Except WorktreeError PreparedEdits :=
  (crates.prepareEdits (applyLimits options) source file.edits).mapError fun error =>
    (WorktreeError.withSource .editRejected .prepare "weavatrix-edit rejected the file plan"
      error).atPath file.path

def projectFile (file : FileEdit T) (source : Bytes) (options : WorktreeOptions) :
    Except WorktreeError ProjectedFile := do
  validateLocalLimits file source options.limits
  let expected ← fromOption (Sha256Hash.parse file.sha256)
    ((WorktreeError.withSource .invalidPlan .validate "file contains an invalid expected SHA-256"
      "invalid SHA-256").atPath file.path)
  let actual := crates.sha256 source
  if actual ≠ expected then
    throw ((WorktreeError.new .sourceHashMismatch .prepare
      ("expected " ++ expected.display ++ ", found " ++ actual.display)).atPath file.path)
  let prepared ← preparedEdits crates file source options
  return { source
           sourceHash := actual
           outputHash := crates.sha256 prepared.bytes
           bytesBefore := source.length
           bytesAfter := prepared.bytes.length
           editCount := prepared.edits }

/-! ### The plan -/

def validatePlan (plan : EditPlan T) (options : WorktreeOptions) : Except WorktreeError Unit := do
  let limits := options.limits
  validateMetadata crates plan limits
  if limits.maxFiles * limits.maxEditsPerFile > u64Max then
    throw (tooLargePlan "total edit limit overflow")
  (crates.validateWith plan
    { maxFiles := limits.maxFiles
      maxEditsPerFile := limits.maxEditsPerFile
      maxTotalEdits := limits.maxFiles * limits.maxEditsPerFile
      maxPathBytes := 4096
      maxTotalTextBytes := limits.maxTotalArtifactBytes }).mapError fun error =>
    .withSource .invalidPlan .validate "weavatrix-edit rejected the multi-file plan" error

/-- Files in the order of their keys, and of their paths where keys agree. -/
def ordered (plan : EditPlan T) : List (FileEdit T × Nat) :=
  (plan.files.map PlanFile.edit).zipIdx.mergeSort fun left right =>
    crates.portablePathKey left.1.path < crates.portablePathKey right.1.path ||
      (crates.portablePathKey left.1.path = crates.portablePathKey right.1.path &&
        left.1.path ≤ right.1.path)

/-- Opens and probes the files one after the other; `identities` are those of the
files before, with their places in the plan. -/
def preflight (root : FsRoot) (options : WorktreeOptions) :
    List (FileIdentity × Nat) → Nat → List (FileEdit T × Nat) → Action (List (PlannedTarget T))
  | _, _, [] => return []
  | identities, total, (file, index) :: rest => do
      let access ← orElse (root.openTarget crates.toCrates file.path)
        (fsError .validate file.path index "failed to open a confined target")
      let probe ← orElse access.probe
        (fsError .validate file.path index "failed to inspect target metadata")
      if probe.bytes > options.limits.maxSourceBytesPerFile then
        throw (((tooLargePlan "source exceeds the per-file byte limit").atPath
          file.path).atFile index)
      let total ← liftWorktree (fromOption (checkedAdd total probe.bytes)
        (tooLargePlan "total source size overflow"))
      if total > options.limits.maxTotalSourceBytes then
        throw (tooLargePlan "plan exceeds the total source byte limit")
      match identities.lookup probe.identity with
      | some first =>
          throw (((WorktreeError.new .invalidPlan .validate
            ("target aliases plan file " ++ toString first ++
              " by filesystem identity")).atPath file.path).atFile index)
      | none => do
          let planned ← preflight root options ((probe.identity, index) :: identities) total rest
          return ⟨index, file, access, probe.identity⟩ :: planned

def projectTarget (options : WorktreeOptions) (planned : PlannedTarget T) :
    Action (ProjectedTarget T) := do
  let snapshot ← orElse (planned.access.snapshot options.limits.maxSourceBytesPerFile)
    (fsError .prepare planned.file.path planned.originalIndex "failed to read target safely")
  if snapshot.identity ≠ planned.identity then
    throw (((WorktreeError.new .concurrentModification .prepare
      "target identity changed after preflight").atPath planned.file.path).atFile
      planned.originalIndex)
  if !ByteArray.validateUTF8 ⟨snapshot.source.toArray⟩ then
    throw (((WorktreeError.withSource .nonUtf8Source .prepare "target is not valid UTF-8"
      "invalid utf-8 sequence").atPath planned.file.path).atFile planned.originalIndex)
  let projected ← liftWorktree ((projectFile crates planned.file snapshot.source
    options).mapError fun error => error.atFile planned.originalIndex)
  return { originalIndex := planned.originalIndex
           file := planned.file
           access := planned.access
           identity := planned.identity
           permissions := snapshot.portablePermissions
           projected }

def validateAggregateOutput (files : List (ProjectedTarget T)) (options : WorktreeOptions) :
    Except WorktreeError Unit := do
  let (source, output) ← files.foldlM (fun (source, output) file => do
      let source ← fromOption (checkedAdd source file.projected.bytesBefore)
        (tooLargePlan "total source size overflow")
      let output ← fromOption (checkedAdd output file.projected.bytesAfter)
        (tooLargePlan "total output size overflow")
      return (source, output)) (0, 0)
  if output > options.limits.maxTotalOutputBytes then
    throw (tooLargePlan "plan exceeds the total output byte limit")
  let artifacts ← fromOption (checkedAdd source output)
    (tooLargePlan "total artifact size overflow")
  if artifacts > options.limits.maxTotalArtifactBytes then
    throw (tooLargePlan "plan exceeds the total artifact byte limit")

def projectPlan (root : FsRoot) (options : WorktreeOptions) (plan : EditPlan T) :
    Planning (List (ProjectedTarget T)) := do
  ExceptT.mk (pure (validatePlan crates plan options))
  let planned ← (preflight crates root options [] 0 (ordered crates plan)).planning
  let results ← ExceptT.lift (mapOrdered planned
    (options.workerCount crates.availableParallelism planned.length)
    (projectTarget crates options))
  let projected ← ExceptT.mk (pure (collectResults 0 results))
  ExceptT.mk (pure (validateAggregateOutput projected options))
  return projected

end

structure DryRunReport where
  operation : String
  files : List FileChange
  deriving DecidableEq

def changeFor {T : Type} (file : ProjectedTarget T) : FileChange :=
  { path := file.file.path
    oldSha256 := file.projected.sourceHash
    newSha256 := file.projected.outputHash
    bytesBefore := file.projected.bytesBefore
    bytesAfter := file.projected.bytesAfter
    editsApplied := file.projected.editCount }

def dryRunReport {T : Type} (plan : EditPlan T) (files : List (ProjectedTarget T)) :
    DryRunReport :=
  ⟨plan.operation, files.map changeFor⟩

end Edit

end Worktree
