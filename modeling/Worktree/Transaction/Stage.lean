import Worktree.Journal.EditJournal
import Worktree.Operation.Stage
import Worktree.Transaction.Projection
/-
Staging an edit plan: each file is declared in the journal, and the workers write
its backup and its output beside it.
-/

namespace Worktree

open CrashLogic

namespace Edit

structure StagedFile where
  stableIndex : Nat
  originalIndex : Nat
  access : TargetAccess
  identity : FileIdentity
  oldHash : Sha256Hash
  newHash : Sha256Hash
  stageName : String
  backupName : String
  change : FileChange
  deriving DecidableEq

structure StageJob (T : Type) where
  file : ProjectedTarget T
  stableIndex : Nat
  stageName : String
  backupName : String

structure ArtifactRef where
  access : TargetAccess
  stageName : String
  backupName : String

/-! ### Verification -/

section

variable (sha256 : Bytes → Sha256Hash) (access : TargetAccess)

def concurrent (index : Nat) (phase : TransactionPhase) (message : String) : WorktreeError :=
  ((WorktreeError.new .concurrentModification phase message).atPath access.path).atFile index

def verifyTarget (expectedHash : Sha256Hash) (expectedIdentity : Option FileIdentity)
    (maxBytes index : Nat) (phase : TransactionPhase) : Action Unit := do
  let snapshot ← orElse (access.snapshot maxBytes)
    (fsError phase access.path index "failed to revalidate a transaction target")
  if expectedIdentity.any fun identity => identity ≠ snapshot.identity then
    throw (concurrent access index phase "target identity changed")
  let actual := sha256 snapshot.source
  if actual ≠ expectedHash then
    throw (concurrent access index phase
      ("expected target " ++ expectedHash.display ++ ", found " ++ actual.display))

/-- Outside a commit an artifact that is not exact needs a recovery. -/
def artifactError (phase : TransactionPhase) (error : WorktreeError) : WorktreeError :=
  if phase = .commit then error else error.requiringRecovery

def verifyArtifact (name : String) (expectedHash : Sha256Hash) (maxBytes index : Nat)
    (phase : TransactionPhase) : Action Unit := do
  let bytes ← orElse (access.readArtifact name maxBytes) fun error =>
    artifactError phase
      (fsError phase access.path index "failed to read a transaction artifact" error)
  if sha256 bytes ≠ expectedHash then
    let code : WorktreeErrorCode := if phase = .commit then .commitFailed else .recoveryRequired
    throw (artifactError phase (((WorktreeError.new code phase
      "transaction artifact SHA-256 does not match its journal evidence").atPath
      access.path).atFile index))

end

/-! ### Artifacts -/

section

variable {T : Type} (crates : EditCrates T)

def stageIo (file : ProjectedTarget T) (message : String) (source : IoError) : WorktreeError :=
  ((WorktreeError.withSource .stageFailed .stage message source.message).atPath
    file.file.path).atFile file.originalIndex

/-- The last steps of an artifact: permissions, then the disk. -/
def sealArtifact (file : Ino) (permissions : PortablePermissions) : Io Unit := do
  let metadata ← perform (.metadata file)
  perform (.setPermissions file (permissions.applyTo metadata.mode))
  perform (.syncFile file)

/-- Streams the output, checked again, in the pieces it is made of. -/
def writeProjected (target : ProjectedTarget T) (options : WorktreeOptions) (file : Ino) :
    Action Unit := do
  let prepared ← liftWorktree (preparedEdits crates target.file target.projected.source options)
  if prepared.bytes.length ≠ target.projected.bytesAfter then
    throw ((WorktreeError.new .concurrentModification .stage
      "prepared output size changed between validation and staging").atPath target.file.path)
  orElse (prepared.chunks.forM fun chunk => perform (.write file chunk)) fun error =>
    (WorktreeError.withSource .stageFailed .stage "failed to stream prepared output"
      error.message).atPath target.file.path

def verifyArtifacts (job : StageJob T) (options : WorktreeOptions) : Action Unit := do
  let file := job.file
  let backup ← orElse (file.access.readArtifact job.backupName
      options.limits.maxSourceBytesPerFile) (stageIo file "failed to verify backup")
  let stage ← orElse (file.access.readArtifact job.stageName
      options.limits.maxOutputBytesPerFile) (stageIo file "failed to verify staged output")
  if crates.sha256 backup ≠ file.projected.sourceHash ||
      crates.sha256 stage ≠ file.projected.outputHash then
    throw (((WorktreeError.new .stageFailed .stage
      "a synchronized artifact failed SHA-256 verification").atPath
      file.file.path).atFile file.originalIndex)

def writeArtifacts (options : WorktreeOptions) (job : StageJob T) : Action Unit := do
  let file := job.file
  let backup ← orElse (file.access.createNew job.backupName)
    (fsError .stage file.file.path file.originalIndex "failed to create an exclusive backup")
  orElse (do
      perform (.write backup file.projected.source)
      sealArtifact backup file.permissions)
    (stageIo file "failed to write and synchronize backup")
  let stage ← orElse (file.access.createNew job.stageName)
    (stageIo file "failed to create an exclusive stage file")
  writeProjected crates file options stage
  orElse (sealArtifact stage file.permissions) (stageIo file "failed to synchronize staged output")
  orElse file.access.syncParent (stageIo file "failed to synchronize target parent")
  verifyArtifacts crates job options

/-- What a failed job could not remove is left to the cleanup of all artifacts. -/
def stageOne (options : WorktreeOptions) (job : StageJob T) : Action StagedFile := do
  match ← ExceptT.lift (writeArtifacts crates options job).run with
  | .ok () =>
      return { stableIndex := job.stableIndex
               originalIndex := job.file.originalIndex
               access := job.file.access
               identity := job.file.identity
               oldHash := job.file.projected.sourceHash
               newHash := job.file.projected.outputHash
               stageName := job.stageName
               backupName := job.backupName
               change := changeFor job.file }
  | .error error => do
      let _ ← ExceptT.lift (job.file.access.removeArtifact job.stageName).run
      let _ ← ExceptT.lift (job.file.access.removeArtifact job.backupName).run
      throw error

/-! ### Cleanup -/

def removePair (access : TargetAccess) (stage backup : String) (index : Nat) : Action Nat := do
  let first ← orElse (access.removeArtifact stage) fun error =>
    (fsError .cleanup access.path index "failed to remove a stage artifact"
      error).requiringRecovery
  let second ← orElse (access.removeArtifact backup) fun error =>
    (fsError .cleanup access.path index "failed to remove a backup artifact"
      error).requiringRecovery
  return (if first then 1 else 0) + (if second then 1 else 0)

def cleanupStaged : List StagedFile → Action Nat
  | [] => return 0
  | file :: rest => do
      let removed ← removePair file.access file.stageName file.backupName file.originalIndex
      return removed + (← cleanupStaged rest)

def cleanupArtifactsFrom : Nat → List ArtifactRef → Action Nat
  | _, [] => return 0
  | index, artifact :: rest => do
      let removed ← removePair artifact.access artifact.stageName artifact.backupName index
      return removed + (← cleanupArtifactsFrom (index + 1) rest)

def cleanupArtifacts (artifacts : List ArtifactRef) : Action Nat :=
  cleanupArtifactsFrom 0 artifacts

/-! ### All files -/

/-- The values of the jobs that ended well, and the first failure of another. -/
def sortStaged : Nat → List (Except (ScheduleError WorktreeError) StagedFile) →
    List StagedFile × Option WorktreeError
  | _, [] => ([], none)
  | index, .ok value :: rest =>
      (value :: (sortStaged (index + 1) rest).1, (sortStaged (index + 1) rest).2)
  | index, .error (.operation error) :: rest => ((sortStaged (index + 1) rest).1, some error)
  | index, .error (.panicked message) :: rest =>
      ((sortStaged (index + 1) rest).1,
        some ((WorktreeError.new .workerPanicked .stage message).atFile index))
  | index, .error .cancelled :: rest => sortStaged (index + 1) rest

def collectStaged (results : List (Except (ScheduleError WorktreeError) StagedFile))
    (artifacts : List ArtifactRef) : Action (List StagedFile) :=
  match sortStaged 0 results with
  | (staged, none) => return staged
  | (_, some error) => do
      let _ ← cleanupArtifacts artifacts
      throw error

def tooLargeStage (message : String) : WorktreeError :=
  .new .transactionTooLarge .stage message

def fileRecord (file : ProjectedTarget T) (index : Nat) (stageName backupName : String) :
    Except WorktreeError JournalRecord := do
  let editCount ← fromOption (toU32 file.projected.editCount)
    (tooLargeStage "edit count does not fit the journal contract")
  return .preparedFile index file.file.path file.projected.sourceHash.display
    file.projected.outputHash.display file.projected.bytesBefore file.projected.bytesAfter
    editCount stageName backupName

/-- Declares the files one after the other. -/
def declareFiles (transactionId : String) :
    Nat → List (ProjectedTarget T) → Journaled (List (StageJob T))
  | _, [] => return []
  | index, file :: rest => do
      let stableIndex ← beside (liftWorktree (fromOption (toU32 index)
        (tooLargeStage "file index does not fit the journal contract")))
      let stageName := artifactName transactionId stableIndex "stage"
      let backupName := artifactName transactionId stableIndex "backup"
      let record ← beside (liftWorktree (fileRecord file stableIndex stageName backupName))
      appendOr crates.toCrates record (journalError .stage "failed to record file intent")
      beside (orElse (perform (.cloneHandle file.access.parent))
        (fsError .stage file.file.path file.originalIndex "failed to clone a target capability"))
      let jobs ← declareFiles transactionId (index + 1) rest
      return ⟨file, stableIndex, stageName, backupName⟩ :: jobs

/-- Preparation with the journal open. -/
abbrev PlanningJournaled := ExceptT WorktreeError (StateT JournalWriter (Task (Phase FsOp)))

def Journaled.planning {α : Type} (action : Journaled α) : PlanningJournaled α :=
  ExceptT.mk (StateT.mk fun writer => (action.run.run writer).phase)

def stageAll (files : List (ProjectedTarget T)) (transactionId : String)
    (options : WorktreeOptions) : PlanningJournaled (List StagedFile) := do
  let jobs ← (declareFiles crates transactionId 0 files).planning
  let results ← ExceptT.lift (StateT.lift (mapOrdered jobs
    (options.workerCount crates.availableParallelism jobs.length) (stageOne crates options)))
  (beside (collectStaged results
    (jobs.map fun job => ⟨job.file.access, job.stageName, job.backupName⟩))).planning

end

end Edit

end Worktree
