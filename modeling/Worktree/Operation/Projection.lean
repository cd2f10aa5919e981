import Worktree.Operation.Model
/-
Projection: the plan is compiled, every path is opened and snapshotted, and the
outputs are computed from the snapshot before anything is written.
-/

namespace Worktree

open CrashLogic

structure SnapshotJob (T : Type) where
  stableIndex : Nat
  transition : PathTransition T
  access : TargetAccess

structure SnapshotResult (T : Type) where
  stableIndex : Nat
  transition : PathTransition T
  access : TargetAccess
  before : ProjectedInput

def pathIo (phase : TransactionPhase) (path message : String) (source : IoError) : WorktreeError :=
  let detail := source.message
  let code : WorktreeErrorCode :=
    match source.kind with
    | .notFound => .pathMissing
    | .alreadyExists => .pathExists
    | _ =>
        if containsText detail "reserved" || containsText detail "state namespace" then
          .reservedPath
        else if containsText detail "symbolic link" || containsText detail "reparse" then
          .symlinkNotAllowed
        else if containsText detail "crosses" then .crossFilesystem
        else if containsText detail "not a regular file" then .notRegularFile
        else if containsText detail "hard-linked" then .hardlinkNotAllowed
        else if containsText detail "read-only" then .readOnlyFile
        else if containsText detail "byte limit" || containsText detail "exceeds" then
          .sourceTooLarge
        else .io
  (WorktreeError.withSource code phase message source.message).atPath path

def invalidInternal (message : String) (index : Nat) : WorktreeError :=
  (WorktreeError.new .invalidPlan .validate message).atFile index

def planTooLarge (message : String) : WorktreeError :=
  .new .transactionTooLarge .validate message

section

variable {T : Type} (crates : Crates T)

/-! ### Snapshots -/

def snapshotInput (transition : PathTransition T) (observed : SlotSnapshot) :
    Except WorktreeError ProjectedInput :=
  match transition.before, observed with
  | .absent, .absent => .ok .absent
  | .absent, .present _ =>
      .error ((WorktreeError.new .pathExists .prepare
        "path must be absent before this operation").atPath transition.path)
  | .present operationIndex .., .absent =>
      .error (((WorktreeError.new .pathMissing .prepare
        "path must exist before this operation").atPath transition.path).atFile operationIndex)
  | .present operationIndex expectedSha256 _, .present snapshot =>
      let actual := crates.sha256 snapshot.source
      if actual ≠ expectedSha256 then
        .error (((WorktreeError.new .sourceHashMismatch .prepare
          ("expected " ++ expectedSha256.display ++ ", found " ++ actual.display)).atPath
          transition.path).atFile operationIndex)
      else if !ByteArray.validateUTF8 ⟨snapshot.source.toArray⟩ then
        .error (((WorktreeError.withSource .nonUtf8Source .prepare
          "operation source is not valid UTF-8" "invalid utf-8 sequence").atPath
          transition.path).atFile operationIndex)
      else
        .ok (.present snapshot.source
          { sha256 := actual
            bytes := snapshot.source.length
            identity := snapshot.identity
            permissions := snapshot.portablePermissions })

def snapshot (options : WorktreeOptions) (job : SnapshotJob T) : Action (SnapshotResult T) := do
  let observed ← orElse (job.access.snapshotSlot options.limits.maxSourceBytesPerFile)
    (pathIo .prepare job.transition.path "failed to snapshot an exact path slot")
  let before ← liftWorktree (snapshotInput crates job.transition observed)
  return ⟨job.stableIndex, job.transition, job.access, before⟩

/-- The first job in input order that did not end well decides. -/
def collectSnapshots :
    Nat → List (Except (ScheduleError WorktreeError) (SnapshotResult T)) →
      Except WorktreeError (List (SnapshotResult T))
  | _, [] => .ok []
  | _, .error (.operation error) :: _ => .error error
  | index, .error (.panicked message) :: _ =>
      .error ((WorktreeError.new .workerPanicked .prepare message).atFile index)
  | index, .error .cancelled :: _ =>
      .error ((WorktreeError.new .cancelled .prepare
        "projection was cancelled after an earlier worker failure").atFile index)
  | index, .ok value :: rest => do
      return value :: (← collectSnapshots (index + 1) rest)

/-! ### Outputs -/

abbrev Sources := KeyMap (Bytes × PresentEvidence)

abbrev Outputs := KeyMap (Sha256Hash × Nat × Nat)

def applyLimits (options : WorktreeOptions) : ApplyLimits :=
  { maxSourceBytes := options.limits.maxSourceBytesPerFile
    maxEdits := options.limits.maxEditsPerFile
    maxOutputBytes := options.limits.maxOutputBytesPerFile }

def presentOutput (options : WorktreeOptions) (source : Bytes) (edits : List T)
    (permissions : PortablePermissions) (operationIndex : Nat) (path : String) :
    Except WorktreeError (ProjectedOutput T) :=
  if source.length > options.limits.maxOutputBytesPerFile then
    .error (((WorktreeError.new .transactionTooLarge .prepare
      "operation output exceeds the per-file byte limit").atPath path).atFile operationIndex)
  else if edits.isEmpty then
    .ok (.present
      { recipe := .exact source
        sha256 := crates.sha256 source
        bytes := source.length
        permissions
        editCount := 0 })
  else
    match crates.prepareEdits (applyLimits options) source edits with
    | .error error =>
        .error (((WorktreeError.withSource .editRejected .prepare
          "weavatrix-edit rejected operation edits" error).atPath path).atFile operationIndex)
    | .ok prepared =>
        .ok (.present
          { recipe := .edited source edits
            sha256 := crates.sha256 prepared.bytes
            bytes := prepared.bytes.length
            permissions
            editCount := prepared.edits })

def ownPermissions (input : ProjectedInput) (operationIndex : Nat) :
    Except WorktreeError PortablePermissions :=
  match input with
  | .present _ evidence => .ok evidence.permissions
  | .absent => .error (invalidInternal "present output has no permission source" operationIndex)

def createPermissions (value : CreatePermissions) : PortablePermissions :=
  { readonly := value.readonly
    unixMode := some value.unixMode }

def projectAfter (options : WorktreeOptions) (planned : PlannedOutput T)
    (ownBefore : ProjectedInput) (sources : Sources) :
    Except WorktreeError (ProjectedOutput T) :=
  match planned with
  | .absent => .ok .absent
  | .create operationIndex file =>
      presentOutput crates options file.contents [] (createPermissions file.permissions)
        operationIndex file.path
  | .modify operationIndex file =>
      match ownBefore.source with
      | none => .error (invalidInternal "modify output has no source" operationIndex)
      | some source => do
          presentOutput crates options source file.edits
            (← ownPermissions ownBefore operationIndex) operationIndex file.path
  | .rename operationIndex source _ edits =>
      match sources[source]? with
      | none => .error (invalidInternal "rename output has no source" operationIndex)
      | some (contents, evidence) =>
          presentOutput crates options contents edits evidence.permissions operationIndex source

/-- Sources by path, with their total size. -/
def gatherSources (options : WorktreeOptions) :
    Sources → Nat → List (SnapshotResult T) → Except WorktreeError (Sources × Nat)
  | sources, sourceBytes, [] => .ok (sources, sourceBytes)
  | sources, sourceBytes, result :: rest =>
      match result.before with
      | .absent => gatherSources options sources sourceBytes rest
      | .present source evidence => do
          let sourceBytes ← fromOption (checkedAdd sourceBytes source.length)
            (planTooLarge "total source byte count overflow")
          if sourceBytes > options.limits.maxTotalSourceBytes then
            throw (planTooLarge "operation plan exceeds the total source byte limit")
          gatherSources options (sources.insert result.transition.path (source, evidence))
            sourceBytes rest

/-- Outputs by path, with their total size, and the projected paths in order. -/
def gatherOutputs (options : WorktreeOptions) (sources : Sources) :
    Outputs → Nat → List (SnapshotResult T) →
      Except WorktreeError (Outputs × Nat × List (ProjectedPath T))
  | outputs, outputBytes, [] => .ok (outputs, outputBytes, [])
  | outputs, outputBytes, result :: rest => do
      let after ← projectAfter crates options result.transition.after result.before sources
      let (outputs, outputBytes) ← match after with
        | .absent => pure (outputs, outputBytes)
        | .present present => do
            let outputBytes ← fromOption (checkedAdd outputBytes present.bytes)
              (planTooLarge "total output byte count overflow")
            if outputBytes > options.limits.maxTotalOutputBytes then
              throw (planTooLarge "operation plan exceeds the total output byte limit")
            pure (outputs.insert result.transition.path
              (present.sha256, present.bytes, present.editCount), outputBytes)
      let (outputs, outputBytes, paths) ← gatherOutputs options sources outputs outputBytes rest
      return (outputs, outputBytes,
        { stableIndex := result.stableIndex
          path := result.transition.path
          access := result.access
          before := result.before
          after } :: paths)

/-! ### Logical operations -/

def changeSource (sources : Sources) (path : String) (index : Nat) :
    Except WorktreeError PresentEvidence :=
  match sources[path]? with
  | some (_, evidence) => .ok evidence
  | none => .error (invalidInternal "logical operation has no projected source" index)

def changeOutput (outputs : Outputs) (path : String) (index : Nat) :
    Except WorktreeError (Sha256Hash × Nat × Nat) :=
  fromOption outputs[path]? (invalidInternal "logical operation has no projected output" index)

def change (sources : Sources) (outputs : Outputs) (index : Nat) :
    WorktreeOperation T → Except WorktreeError OperationChange
  | .modify file => do
      let before ← changeSource sources file.path index
      let (hash, bytes, edits) ← changeOutput outputs file.path index
      return ⟨.modify, some file.path, none, some before.sha256, some hash, before.bytes, bytes,
        edits⟩
  | .create file => do
      let (hash, bytes, edits) ← changeOutput outputs file.path index
      return ⟨.create, none, some file.path, none, some hash, 0, bytes, edits⟩
  | .delete file => do
      let before ← changeSource sources file.path index
      return ⟨.delete, some file.path, none, some before.sha256, none, before.bytes, 0, 0⟩
  | .rename file => do
      let before ← changeSource sources file.from index
      let (hash, bytes, edits) ← changeOutput outputs file.to index
      return ⟨.rename, some file.from, some file.to, some before.sha256, some hash, before.bytes,
        bytes, edits⟩

def changes (sources : Sources) (outputs : Outputs) :
    Nat → List (WorktreeOperation T) → Except WorktreeError (List OperationChange)
  | _, [] => .ok []
  | index, operation :: rest => do
      let first ← change sources outputs index operation
      return first :: (← changes sources outputs (index + 1) rest)

def assemble (plan : WorktreePlan T) (snapshots : List (SnapshotResult T))
    (options : WorktreeOptions) : Except WorktreeError (ProjectedPlan T) := do
  let (sources, sourceBytes) ← gatherSources options {} 0 snapshots
  let (outputs, outputBytes, paths) ← gatherOutputs crates options sources {} 0 snapshots
  let artifactBytes ← fromOption (checkedAdd sourceBytes outputBytes)
    (planTooLarge "total artifact byte count overflow")
  if artifactBytes > options.limits.maxTotalArtifactBytes then
    throw (planTooLarge "operation plan exceeds the total artifact byte limit")
  return { operation := plan.operation
           operations := ← changes sources outputs 0 plan.operations
           paths }

/-! ### The whole projection -/

def openJobs (root : FsRoot) : Nat → List (PathTransition T) → Action (List (SnapshotJob T))
  | _, [] => return []
  | index, transition :: rest => do
      let stableIndex ← liftWorktree (fromOption (toU32 index)
        (planTooLarge "path index does not fit the transaction contract"))
      let access ← orElse (root.openTarget crates transition.path)
        (pathIo .validate transition.path "failed to open a confined path slot")
      return ⟨stableIndex, transition, access⟩ :: (← openJobs root (index + 1) rest)

def project (root : FsRoot) (options : WorktreeOptions) (plan : WorktreePlan T) :
    Planning (ProjectedPlan T) := do
  let transitions ← ExceptT.mk (pure (compilePlan crates plan))
  let jobs ← (openJobs crates root 0 transitions).planning
  let results ← ExceptT.lift (mapOrdered jobs
    (options.workerCount crates.availableParallelism jobs.length) (snapshot crates options))
  let snapshots ← ExceptT.mk (pure (collectSnapshots 0 results))
  ExceptT.mk (pure (assemble crates plan snapshots options))

end

def preview {T : Type} (projected : ProjectedPlan T) : WorktreeDryRunReport :=
  ⟨projected.operation, projected.operations, projected.paths.length⟩

end Worktree
