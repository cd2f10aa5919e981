import Worktree.Operation.Projection
/-
Staging: every path announces its artifacts in the journal, the workers write a
backup of what is there and a stage of what shall be there, and the journal
records the identities once all of them are verified and synchronized.
-/

namespace Worktree

open CrashLogic

structure StageJob (T : Type) where
  path : ProjectedPath T
  stageName : Option String
  backupName : Option String

def padded (index : Nat) : List Char :=
  List.replicate (4 - (Nat.toDigits 10 index).length) '0' ++ Nat.toDigits 10 index

def artifactName (transactionId : String) (index : Nat) (suffix : String) : String :=
  artifactPrefix ++ transactionId ++ "-" ++ String.ofList (padded index) ++ "." ++ suffix

def stageIo (path : String) (index : Nat) (message : String) (source : IoError) : WorktreeError :=
  ((WorktreeError.withSource .stageFailed .stage message source.message).atPath path).atFile index

def stageJournalError (message : String) (source : JournalError) : WorktreeError :=
  .withSource .journalCorrupt .stage message source

def invalidStage (path message : String) : WorktreeError :=
  let error := WorktreeError.new .stageFailed .stage message
  if path = "" then error else error.atPath path

def stateFromEvidence (value : SlotEvidence) (identity : Bool) : StateRecord :=
  match value with
  | .absent => .absent
  | .present value =>
      .present value.sha256.display value.bytes value.permissions
        (if identity then some value.identity else none)

section

variable {T : Type} (crates : Crates T)

def stateFromOutput : ProjectedOutput T → StateRecord
  | .absent => .absent
  | .present value => .present value.sha256.display value.bytes value.permissions none

/-! ### Artifacts -/

def finishArtifact (access : TargetAccess) (name : String) (file : Ino)
    (permissions : PortablePermissions) (maxBytes : Nat) (expected : Sha256Hash) (path : String)
    (index : Nat) : Action PresentEvidence := do
  orElse (do
      let metadata ← perform (.metadata file)
      perform (.setPermissions file (permissions.applyTo metadata.mode))
      perform (.syncFile file))
    (stageIo path index "failed to synchronize artifact")
  let evidence ← orElse (access.artifactEvidence crates.sha256 name maxBytes)
    (stageIo path index "failed to verify synchronized artifact")
  if evidence.sha256 ≠ expected || evidence.permissions ≠ permissions then
    throw ((invalidStage path "artifact evidence does not match projection").atFile index)
  return evidence

def writeArtifact (access : TargetAccess) (name : String) (bytes : Bytes)
    (permissions : PortablePermissions) (maxBytes : Nat) (expected : Sha256Hash) (path : String)
    (index : Nat) : Action PresentEvidence := do
  let file ← orElse (access.createNew name)
    (stageIo path index "failed to create exclusive backup")
  orElse (perform (.write file bytes)) (stageIo path index "failed to write exact backup")
  finishArtifact crates access name file permissions maxBytes expected path index

def writeRecipe (options : WorktreeOptions) (file : Ino) (recipe : OutputRecipe T) (path : String)
    (index : Nat) : Action Unit :=
  match recipe with
  | .exact source =>
      orElse (perform (.write file source))
        (stageIo path index "failed to write exact staged output")
  | .edited source edits =>
      match crates.prepareEdits (applyLimits options) source edits with
      | .error error =>
          throw (((WorktreeError.withSource .editRejected .stage
            "staged edit recipe no longer validates" error).atPath path).atFile index)
      | .ok prepared =>
          orElse (prepared.chunks.forM fun chunk => perform (.write file chunk))
            (stageIo path index "failed to stream exact staged edits")

def writeOutput (access : TargetAccess) (name : String) (present : ProjectedPresent T)
    (options : WorktreeOptions) (path : String) (index : Nat) : Action PresentEvidence := do
  let file ← orElse (access.createNew name) (stageIo path index "failed to create exclusive stage")
  writeRecipe crates options file present.recipe path index
  finishArtifact crates access name file present.permissions options.limits.maxOutputBytesPerFile
    present.sha256 path index

/-! ### One job -/

def stageBackup (options : WorktreeOptions) (job : StageJob T) :
    Action (Option PresentEvidence) :=
  match job.path.before, job.backupName with
  | .present source evidence, some name => do
      return some (← writeArtifact crates job.path.access name source evidence.permissions
        options.limits.maxSourceBytesPerFile evidence.sha256 job.path.path job.path.stableIndex)
  | .absent, none => return none
  | _, _ => throw (invalidStage job.path.path "backup recipe is inconsistent")

def stageOutput (options : WorktreeOptions) (job : StageJob T) :
    Action (Option PresentEvidence) :=
  match job.path.after, job.stageName with
  | .present present, some name => do
      return some (← writeOutput crates job.path.access name present options job.path.path
        job.path.stableIndex)
  | .absent, none => return none
  | _, _ => throw (invalidStage job.path.path "stage recipe is inconsistent")

def stageArtifacts (options : WorktreeOptions) (job : StageJob T) :
    Action (SlotEvidence × Option PresentEvidence × Option PresentEvidence) := do
  let before := job.path.before.evidence
  let backup ← stageBackup crates options job
  let stage ← stageOutput crates options job
  orElse job.path.access.syncParent
    (stageIo job.path.path job.path.stableIndex "failed to synchronize operation artifacts")
  return (before, backup, stage)

def discardArtifact (job : StageJob T) (artifact : String) : Action Unit := do
  match ← ExceptT.lift (job.path.access.removeArtifact artifact).run with
  | .ok _ => return ()
  | .error error =>
      throw (stageIo job.path.path job.path.stableIndex
        "staging failed and artifact cleanup also failed" error).requiringRecovery

def stageOne (options : WorktreeOptions) (job : StageJob T) : Action StagedPath := do
  match ← ExceptT.lift (stageArtifacts crates options job).run with
  | .ok (before, backup, stage) =>
      return { stableIndex := job.path.stableIndex
               path := job.path.path
               access := job.path.access
               before
               after := stage.elim .absent .present
               backup
               stageName := job.stageName
               backupName := job.backupName }
  | .error primary =>
      (job.stageName.toList ++ job.backupName.toList).forM (discardArtifact job)
      throw primary

/-! ### All jobs -/

def cleanupError (path : StagedPath) (index : Nat) (error : IoError) : WorktreeError :=
  (((WorktreeError.withSource .io .cleanup
    "failed to remove an operation transaction artifact" error.message).atPath path.path).atFile
    index).requiringRecovery

def cleanupPath (index : Nat) (path : StagedPath) : List String → Action Nat
  | [] => return 0
  | artifact :: rest => do
      let removed ← orElse (path.access.removeArtifact artifact) (cleanupError path index)
      return (if removed then 1 else 0) + (← cleanupPath index path rest)

def cleanupFrom : Nat → List StagedPath → Action Nat
  | _, [] => return 0
  | index, path :: rest => do
      let removed ← cleanupPath index path (path.stageName.toList ++ path.backupName.toList)
      return removed + (← cleanupFrom (index + 1) rest)

def cleanup (paths : List StagedPath) : Action Nat :=
  cleanupFrom 0 paths

/-- The values of the jobs that ended well, and the first failure of another. -/
def sortResults : Nat → List (Except (ScheduleError WorktreeError) StagedPath) →
    List StagedPath × Option WorktreeError
  | _, [] => ([], none)
  | index, .ok value :: rest =>
      (value :: (sortResults (index + 1) rest).1, (sortResults (index + 1) rest).2)
  | index, .error (.operation error) :: rest =>
      ((sortResults (index + 1) rest).1, some error)
  | index, .error (.panicked message) :: rest =>
      ((sortResults (index + 1) rest).1,
        some ((WorktreeError.new .workerPanicked .stage message).atFile index))
  | index, .error .cancelled :: rest => sortResults (index + 1) rest

def collectStaged (results : List (Except (ScheduleError WorktreeError) StagedPath)) :
    Action (List StagedPath) :=
  match sortResults 0 results with
  | (paths, none) => return paths
  | (paths, some error) => do
      let _ ← cleanup paths
      throw error

def operationRecord (index : Nat) (operation : OperationChange) : Except WorktreeError Record := do
  let index ← fromOption (toU32 index) (invalidStage "" "operation index is too large")
  let editCount ← fromOption (toU32 operation.editsApplied)
    (invalidStage "" "edit count is too large")
  return .operation index operation.kind.asStr operation.sourcePath operation.destinationPath
    (operation.oldSha256.map Sha256Hash.display) (operation.newSha256.map Sha256Hash.display)
    operation.bytesBefore operation.bytesAfter editCount

def appendOperations : Nat → List OperationChange → Journaled Unit
  | _, [] => return ()
  | index, operation :: rest => do
      let record ← beside (liftWorktree (operationRecord index operation))
      appendOr crates record (stageJournalError "failed to record logical operation")
      appendOperations (index + 1) rest

def stageJob (transactionId : String) (path : ProjectedPath T) : StageJob T :=
  { path
    stageName := match path.after with
      | .present _ => some (artifactName transactionId path.stableIndex "stage")
      | .absent => none
    backupName := match path.before with
      | .present .. => some (artifactName transactionId path.stableIndex "backup")
      | .absent => none }

def pathIntent (job : StageJob T) : Record :=
  .pathIntent job.path.stableIndex job.path.path
    (stateFromEvidence job.path.before.evidence true) (stateFromOutput job.path.after)
    job.stageName job.backupName

def appendIntents (jobs : List (StageJob T)) : Journaled Unit :=
  jobs.forM fun job =>
    appendOr crates (pathIntent job) (stageJournalError "failed to record path staging intent")

def pathStaged (path : StagedPath) : Record :=
  .pathStaged path.stableIndex (path.after.present?.map PresentEvidence.identity)
    (path.backup.map PresentEvidence.identity)

def appendStaged (paths : List StagedPath) : Journaled Unit :=
  paths.forM fun path =>
    appendOr crates (pathStaged path) fun error =>
      (stageJournalError "failed to record synchronized path artifacts" error).requiringRecovery

/-- Preparation with the journal open. -/
abbrev PlanningJournaled := ExceptT WorktreeError (StateT Writer (Task (Phase FsOp)))

def Journaled.planning {α : Type} (action : Journaled α) : PlanningJournaled α :=
  ExceptT.mk (StateT.mk fun writer => (action.run.run writer).phase)

/-- `panics` says after how many of its calls a staging job panics, if it does. -/
def stageAll (panics : Nat → Option (Nat × Payload)) (projected : ProjectedPlan T)
    (transactionId : String) (options : WorktreeOptions) :
    PlanningJournaled (String × List OperationChange × List StagedPath) := do
  (appendOperations crates 0 projected.operations).planning
  let jobs := projected.paths.map (stageJob transactionId)
  (appendIntents crates jobs).planning
  let results ← ExceptT.lift (StateT.lift (mapUnwinding jobs
    (options.workerCount crates.availableParallelism jobs.length)
    fun index job => unwinding (panics index) (stageOne crates options job)))
  let staged ← (beside (collectStaged results)).planning
  (appendStaged crates staged).planning
  return (projected.operation, projected.operations, staged)

end

end Worktree
