import Worktree.Transaction.Prepare
/-
Recovering an edit transaction from its journal: the records are replayed, and
the files whose commit was announced are put back from their backups.
-/

namespace Worktree

open CrashLogic

namespace Edit

structure RecoveryFile where
  index : Nat
  access : TargetAccess
  oldHash : Sha256Hash
  newHash : Sha256Hash
  bytesBefore : Nat
  bytesAfter : Nat
  editCount : Nat
  stageName : String
  backupName : String
  deriving DecidableEq

structure ParsedJournal where
  transactionId : String
  files : List RecoveryFile
  commitIntents : List Nat
  finished : Option FinishOutcome
  deriving DecidableEq

namespace Recovery

def corrupt (message : String) : WorktreeError :=
  (WorktreeError.new .journalCorrupt .recover message).requiringRecovery

def recoveryIo (error : IoError) : WorktreeError :=
  (WorktreeError.withSource .recoveryRequired .recover "recovery filesystem I/O failed"
    error.message).requiringRecovery

def recoveryRequired (file : RecoveryFile) (message : String) : WorktreeError :=
  (((WorktreeError.new .recoveryRequired .recover message).atPath file.access.path).atFile
    file.index).requiringRecovery

/-! ### Replaying the records -/

/-- What a journal is read into; the declared files are in the order of their records. -/
structure Replayed where
  records : List (Nat × JournalRecord)
  intents : List Nat
  committed : List Nat
  rollbackIntents : List Nat
  finished : Option FinishOutcome
  prepared : Bool
  deriving DecidableEq

def Replayed.empty : Replayed := ⟨[], [], [], [], none, false⟩

def Replayed.declares (state : Replayed) (index : Nat) : Bool :=
  state.records.any fun entry => entry.1 = index

def replay (fileCount : Nat) (state : Replayed) (record : JournalRecord) :
    Except WorktreeError Replayed := do
  if state.finished.isSome then throw (corrupt "journal contains records after Finished")
  match record with
  | .preparedFile index .. =>
      if state.prepared || index ≥ fileCount || state.declares index then
        throw (corrupt "invalid or duplicate PreparedFile record")
      return { state with records := state.records ++ [(index, record)] }
  | .prepared count =>
      if state.prepared || count ≠ fileCount || state.records.length ≠ fileCount then
        throw (corrupt "Prepared does not cover every journal file")
      return { state with prepared := true }
  | .commitIntent index =>
      if !state.prepared || !state.declares index || state.intents.contains index then
        throw (corrupt "invalid or duplicate CommitIntent")
      return { state with intents := state.intents ++ [index] }
  | .committed index =>
      if !state.intents.contains index || state.committed.contains index then
        throw (corrupt "Committed lacks a unique matching intent")
      return { state with committed := state.committed ++ [index] }
  | .rollbackIntent index =>
      if !state.intents.contains index || state.rollbackIntents.contains index then
        throw (corrupt "invalid or duplicate RollbackIntent")
      return { state with rollbackIntents := state.rollbackIntents ++ [index] }
  | .rolledBack index =>
      if !state.rollbackIntents.contains index then
        throw (corrupt "RolledBack lacks a matching intent")
      return state
  | .finished outcome => return { state with finished := some outcome }
  | .header .. => throw (corrupt "duplicate journal header")

section

variable {T : Type} (crates : Crates T)

def recoveryFile (root : FsRoot) (options : WorktreeOptions) (record : JournalRecord) :
    Action RecoveryFile :=
  match record with
  | .preparedFile index path oldSha256 newSha256 bytesBefore bytesAfter editCount stageName
      backupName => do
      if bytesBefore > options.limits.maxSourceBytesPerFile ||
          bytesAfter > options.limits.maxOutputBytesPerFile ||
          editCount > options.limits.maxEditsPerFile then
        throw (corrupt "journal file evidence exceeds configured limits")
      let access ← orElse (root.openTarget crates path) fun error =>
        (fsError .recover path index "failed to reopen journal target" error).requiringRecovery
      let oldHash ← liftWorktree (fromOption (Sha256Hash.parse oldSha256)
        (corrupt "invalid old SHA-256"))
      let newHash ← liftWorktree (fromOption (Sha256Hash.parse newSha256)
        (corrupt "invalid new SHA-256"))
      return ⟨index, access, oldHash, newHash, bytesBefore, bytesAfter, editCount, stageName,
        backupName⟩
  | _ => throw (corrupt "expected PreparedFile")

/-- The files of the records, one after the other. -/
def recoveryFiles (root : FsRoot) (options : WorktreeOptions) :
    List JournalRecord → Action (List RecoveryFile)
  | [] => return []
  | record :: rest => do
      let file ← recoveryFile crates root options record
      return file :: (← recoveryFiles root options rest)

def parseJournal (root : FsRoot) (options : WorktreeOptions) (first : JournalEntry)
    (rest : List JournalEntry) : Action ParsedJournal :=
  match first.record with
  | .header transactionId _ fileCount => do
      if fileCount > options.limits.maxFiles then
        throw (corrupt "journal file count exceeds configured limits")
      let state ← liftWorktree ((rest.map JournalEntry.record).foldlM (replay fileCount) .empty)
      let files ← recoveryFiles crates root options (state.records.map Prod.snd)
      return { transactionId
               files := files.mergeSort fun left right => left.index ≤ right.index
               commitIntents := state.intents
               finished := state.finished }
  | _ => throw (corrupt "journal does not begin with a header")

/-! ### Files -/

def targetHash (file : RecoveryFile) (maxBytes : Nat) : Action Sha256Hash := do
  let snapshot ← orElse (file.access.snapshot maxBytes) fun error =>
    (fsError .recover file.access.path file.index "failed to inspect recovery target"
      error).requiringRecovery
  return crates.sha256 snapshot.source

def restoreFile (options : WorktreeOptions) (file : RecoveryFile) : Journaled Unit := do
  beside (verifyArtifact crates.sha256 file.access file.backupName file.oldHash
    options.limits.maxSourceBytesPerFile file.index .recover)
  appendOr crates (.rollbackIntent file.index)
    (journalError .recover "failed to record recovery intent")
  beside (orElse (do file.access.renameFrom file.backupName; file.access.syncParent) fun error =>
    (fsError .recover file.access.path file.index "failed to restore target during recovery"
      error).requiringRecovery)
  appendOr crates (.rolledBack file.index)
    (journalError .recover "failed to record recovery completion")

def rollbackFile (options : WorktreeOptions) (intents : List Nat) (file : RecoveryFile) :
    Journaled Unit :=
  if !intents.contains file.index then return ()
  else do
    let current ← beside (targetHash crates file options.maxBytes)
    if current = file.oldHash then return ()
    else if current ≠ file.newHash then
      throw (recoveryRequired file "target matches neither journal hash")
    else restoreFile crates options file

def rollbackUnfinished (parsed : ParsedJournal) (options : WorktreeOptions) : Journaled Unit :=
  parsed.files.reverse.forM (rollbackFile crates options parsed.commitIntents)

def verifyFinished (parsed : ParsedJournal) (options : WorktreeOptions) (committed : Bool) :
    Action Unit :=
  parsed.files.forM fun file =>
    if !committed && !parsed.commitIntents.contains file.index then return ()
    else ExceptT.adapt (fun error => recoveryRequired file error.display)
      (verifyTarget crates.sha256 file.access (if committed then file.newHash else file.oldHash)
        none options.maxBytes file.index .recover)

def appendFinished (outcome : FinishOutcome) : Journaled Unit :=
  appendOr crates (.finished outcome) fun error =>
    (journalError .recover "failed to finish recovery journal" error).requiringRecovery

def recoverState (parsed : ParsedJournal) (options : WorktreeOptions) :
    Journaled RecoveryAction :=
  match parsed.finished with
  | some .committed => do
      beside (verifyFinished crates parsed options true)
      return .finishedCommitCleanup
  | some _ => do
      beside (verifyFinished crates parsed options false)
      return .discardedStaging
  | none =>
      if parsed.commitIntents.isEmpty then do
        appendFinished crates .aborted
        return .discardedStaging
      else do
        rollbackUnfinished crates parsed options
        appendFinished crates .rolledBack
        return .rolledBack

def removeRecovered (file : RecoveryFile) (name : String) : Action Nat := do
  let removed ← orElse (file.access.removeArtifact name) fun error =>
    (fsError .cleanup file.access.path file.index "failed to clean recovered artifact"
      error).requiringRecovery
  return if removed then 1 else 0

def cleanupRecovered : List RecoveryFile → Action Nat
  | [] => return 0
  | file :: rest => do
      let stage ← removeRecovered file file.stageName
      let backup ← removeRecovered file file.backupName
      return stage + backup + (← cleanupRecovered rest)

def fileChange (file : RecoveryFile) : FileChange :=
  { path := file.access.path
    oldSha256 := file.oldHash
    newSha256 := file.newHash
    bytesBefore := file.bytesBefore
    bytesAfter := file.bytesAfter
    editsApplied := file.editCount }

/-! ### The whole recovery -/

def recoverEntries (root : FsRoot) (options : WorktreeOptions) (control : ControlDir) (file : Ino)
    (first : JournalEntry) (rest : List JournalEntry) : Action RecoveryReport := do
  let parsed ← parseJournal crates root options first rest
  let writer ← orJournal (JournalWriter.resume crates file options.limits.maxJournalBytes)
    (journalError .recover "failed to resume journal")
  let action ← ExceptT.mk do
    return (← (recoverState crates parsed options).run.run writer).1
  let removed ← cleanupRecovered parsed.files
  orElse control.removeJournal recoveryIo
  return ⟨some parsed.transactionId, action, parsed.files.map fileChange, removed⟩

def recoverLocked (root : FsRoot) (options : WorktreeOptions) (control : ControlDir) :
    Action RecoveryReport := do
  match ← orElse control.openJournal recoveryIo with
  | none => return ⟨none, .noPendingTransaction, [], 0⟩
  | some file =>
      let entries ← orJournal (readJournal crates file options.limits.maxJournalBytes)
        (journalError .recover "failed to replay journal")
      match entries with
      | [] => do
          orElse control.removeJournal recoveryIo
          return ⟨none, .discardedStaging, [], 0⟩
      | first :: rest => recoverEntries crates root options control file first rest

end

end Recovery

def recoverTransaction {T : Type} (crates : Crates T) (root : FsRoot)
    (options : WorktreeOptions) : Action RecoveryReport := do
  let locked ← acquire root
  holding locked.file (Recovery.recoverLocked crates root options locked.control)

end Edit

end Worktree
