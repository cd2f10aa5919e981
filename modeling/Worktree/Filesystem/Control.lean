import Worktree.Filesystem.Target
/-
The state directory: the lock, the journals of the three engines, the undo
receipts and the backups kept for them.
-/

namespace Worktree

open CrashLogic

def legacyJournal : String := "active.jsonl"

def legacyOperationJournal : String := "active-v2.jsonl"

def operationJournal : String := "active-v3.jsonl"

def undoJournal : String := "active-undo.jsonl"

def undoPrefix : String := "undo-"

def undoSuffix : String := ".json"

def invalidJournalState (message : String) : IoError := ⟨.invalidData, message⟩

structure ControlDir where
  dir : Ino
  device : Nat
  deriving DecidableEq

/-- Thirty-two lowercase hexadecimal characters. -/
def isValidId (value : String) : Bool :=
  value.toList.length = 32 &&
    value.toList.all fun char => ('0' ≤ char && char ≤ '9') || ('a' ≤ char && char ≤ 'f')

def validateUndoId (id : String) : Except IoError Unit :=
  if isValidId id then .ok ()
  else .error (invalidJournalState "undo id is not 32 lowercase hex characters")

def undoName (id : String) : Except IoError String := do
  validateUndoId id
  return undoPrefix ++ id ++ undoSuffix

/-- What stands between the prefix and the suffix of a receipt's name. -/
def undoIdOf (name : String) : Option String :=
  if hasPrefix name undoPrefix then
    let rest := name.toList.drop undoPrefix.toList.length
    if undoSuffix.toList.isSuffixOf rest then
      some (String.ofList (rest.take (rest.length - undoSuffix.toList.length)))
    else none
  else none

namespace ControlDir

variable (control : ControlDir)

def openLock : Io Ino :=
  perform (.openFile control.dir "lock" .create)

def sync : Io Unit :=
  perform (.syncDir control.dir)

def createNamedJournal (name : String) : Io Ino :=
  perform (.openFile control.dir name .createNew)

def openNamedJournal (name : String) : Io (Option Ino) := do
  match ← attempt (perform (.openFile control.dir name .readWrite)) with
  | .ok file => return some file
  | .error error =>
      if error.kind = .notFound then return none
      else throw error

def removeNamedJournal (name : String) : Io Unit := do
  match ← attempt (perform (.removeFile control.dir name)) with
  | .ok () => control.sync
  | .error error =>
      if error.kind = .notFound then return ()
      else throw error

def createJournal : Io Ino := control.createNamedJournal legacyJournal

def openJournal : Io (Option Ino) := control.openNamedJournal legacyJournal

def removeJournal : Io Unit := control.removeNamedJournal legacyJournal

def createOperationJournal : Io Ino := control.createNamedJournal operationJournal

def openOperationJournal : Io (Option Ino) := do
  let current ← control.openNamedJournal operationJournal
  let legacy ← control.openNamedJournal legacyOperationJournal
  match current, legacy with
  | some _, some _ => throw (invalidJournalState "both V2 and V3 operation journals exist")
  | some file, none => return some file
  | none, some file => return some file
  | none, none => return none

def removeOperationJournal : Io Unit := do
  let current ← control.openNamedJournal operationJournal
  let legacy ← control.openNamedJournal legacyOperationJournal
  match current.isSome, legacy.isSome with
  | true, true => throw (invalidJournalState "both V2 and V3 operation journals exist")
  | true, false => control.removeNamedJournal operationJournal
  | false, true => control.removeNamedJournal legacyOperationJournal
  | false, false => return ()

def createUndoJournal : Io Ino := control.createNamedJournal undoJournal

def openUndoJournal : Io (Option Ino) := control.openNamedJournal undoJournal

def removeUndoJournal : Io Unit := control.removeNamedJournal undoJournal

def createUndoReceipt (id : String) : Io Ino := do
  control.createNamedJournal (← liftExcept (undoName id))

def openUndoReceipt (id : String) : Io (Option Ino) := do
  control.openNamedJournal (← liftExcept (undoName id))

def removeUndoReceipt (id : String) : Io Unit := do
  control.removeNamedJournal (← liftExcept (undoName id))

def undoReceiptIds : Io (List String) := do
  let names ← perform (.entries control.dir)
  let ids := names.filterMap undoIdOf
  ids.forM fun id => liftExcept (validateUndoId id)
  return ids

/-! ### Retained backups -/

def safeBackupMetadata (metadata : Metadata) (expectedLinks : Nat) :
    Except IoError FileIdentity :=
  if isLinkOrReparse metadata || metadata.kind ≠ .file || metadata.device ≠ control.device ||
      metadata.links ≠ expectedLinks then
    .error (invalid "retained backup identity is not safe")
  else .ok metadata.identity

def safeBackupIdentity (name : String) (expectedLinks : Nat) : Io FileIdentity := do
  liftExcept (validateArtifactName name)
  let metadata ← perform (.symlinkMetadata control.dir name)
  liftExcept (control.safeBackupMetadata metadata expectedLinks)

def backupEvidenceWithLinks (sha256 : Bytes → Sha256Hash) (name : String) (maxBytes : Nat)
    (expectedLinks : Nat) : Io PresentEvidence := do
  liftExcept (validateArtifactName name)
  let file ← perform (.openFile control.dir name .read)
  let metadata ← perform (.metadata file)
  let expectedIdentity ← liftExcept (control.safeBackupMetadata metadata expectedLinks)
  let limit ← liftExcept ((checkedAdd maxBytes 1).elim
    (.error (invalid "retained backup byte limit overflow")) .ok)
  let bytes ← perform (.read file limit)
  if bytes.length > maxBytes then
    throw (invalid "retained backup exceeds its byte limit")
  let final ← perform (.metadata file)
  let finalIdentity ← liftExcept (control.safeBackupMetadata final expectedLinks)
  if finalIdentity ≠ expectedIdentity then
    throw (invalid "retained backup changed while it was inspected")
  return { sha256 := sha256 bytes
           bytes := bytes.length
           identity := expectedIdentity
           permissions := .fromPermissions metadata.mode }

def backupEvidence (sha256 : Bytes → Sha256Hash) (name : String) (maxBytes : Nat) :
    Io PresentEvidence :=
  control.backupEvidenceWithLinks sha256 name maxBytes 1

def optionalEvidence (evidence : Io PresentEvidence) : Io (Option PresentEvidence) := do
  match ← attempt evidence with
  | .ok evidence => return some evidence
  | .error error =>
      if error.kind = .notFound then return none
      else throw error

/-- Moves one exact retained backup out of a target directory and into the state
directory. Idempotent, so a committed journal can finish a partial relocation. -/
def retainBackupFrom (sha256 : Bytes → Sha256Hash) (target : TargetAccess) (name : String)
    (expected : PresentEvidence) (maxBytes : Nat) : Io Unit := do
  if target.rootDevice ≠ control.device then
    throw (invalid "retained backup crosses the worktree filesystem")
  let adjacent ← optionalEvidence (target.artifactEvidence sha256 name maxBytes)
  let retained ← optionalEvidence (control.backupEvidence sha256 name maxBytes)
  match adjacent, retained with
  | some actual, none =>
      if actual = expected then
        perform (.rename target.parent name control.dir name)
        target.syncParent
        control.sync
        let moved ← control.backupEvidence sha256 name maxBytes
        if moved ≠ expected then
          throw (invalid "relocated backup changed during retention")
      else throw (invalid "retained backup does not match exact evidence")
  | none, some actual =>
      if actual = expected then return ()
      else throw (invalid "retained backup does not match exact evidence")
  | some _, some _ =>
      throw (invalid "retained backup exists both beside the target and in state")
  | none, none => throw ⟨.notFound, "retained backup is missing"⟩

def removeBackup (name : String) : Io Bool := do
  liftExcept (validateArtifactName name)
  match ← attempt (control.safeBackupIdentity name 1) with
  | .ok _ =>
      perform (.removeFile control.dir name)
      control.sync
      return true
  | .error error =>
      if error.kind = .notFound then return false
      else throw error

/-- Restores a retained backup over an existing exact target. -/
def replaceTargetFromBackup (target : TargetAccess) (name : String) : Io Unit := do
  let expected ← control.safeBackupIdentity name 1
  if target.rootDevice ≠ control.device then
    throw (invalid "retained restore crosses the worktree filesystem")
  perform (.rename control.dir name target.parent target.name)
  target.syncParent
  control.sync
  let actual ← target.probe
  if actual.identity ≠ expected then
    throw (invalid "restored backup identity changed during replacement")

def sameFileAsTarget (target : TargetAccess) (name : String) : Io Bool := do
  liftExcept (validateArtifactName name)
  let backup ← perform (.symlinkMetadata control.dir name)
  let found ← perform (.symlinkMetadata target.parent target.name)
  if isLinkOrReparse backup || isLinkOrReparse found then
    throw (invalid "linked retained restore contains a link or reparse point")
  if backup.kind ≠ .file || found.kind ≠ .file || backup.device ≠ control.device ||
      found.device ≠ control.device then
    throw (invalid "linked retained restore is not a safe regular file")
  return backup.identity = found.identity && backup.links = 2 && found.links = 2

/-- Starts the no-clobber restore of a retained backup into an absent slot. -/
def linkAbsentTargetFromBackup (target : TargetAccess) (name : String) : Io FileIdentity := do
  target.requireAbsent
  let expected ← control.safeBackupIdentity name 1
  perform (.hardLink control.dir name target.parent target.name)
  target.syncParent
  if !(← control.sameFileAsTarget target name) then
    throw (invalid "restored destination does not alias its state backup")
  return expected

/-- Completes the two-link crash intermediate of an absent-slot restore. -/
def finishLinkedRestore (target : TargetAccess) (name : String) (expected : FileIdentity) :
    Io Unit := do
  if !(← control.sameFileAsTarget target name) then
    throw (invalid "target is not the retained two-link restore")
  perform (.removeFile control.dir name)
  control.sync
  let actual ← target.probe
  if actual.identity ≠ expected then
    throw (invalid "restored target identity changed during finalization")

def installAbsentTargetFromBackup (target : TargetAccess) (name : String) : Io Unit := do
  let expected ← control.linkAbsentTargetFromBackup target name
  control.finishLinkedRestore target name expected

def linkedBackupEvidence (sha256 : Bytes → Sha256Hash) (target : TargetAccess) (name : String)
    (maxBytes : Nat) : Io PresentEvidence := do
  if !(← control.sameFileAsTarget target name) then
    throw (invalid "target is not the retained two-link restore")
  control.backupEvidenceWithLinks sha256 name maxBytes 2

end ControlDir

namespace FsRoot

def openOrCreateChild (parent : Ino) (name : String) (create : Bool) : Io (Option Ino) := do
  let child ← (do
    match ← attempt (perform (.openDir parent name)) with
    | .ok dir => return some dir
    | .error error =>
        if error.kind = .notFound then
          if create then
            match ← attempt (perform (.createDir parent name)) with
            | .ok () => pure ()
            | .error error =>
                if error.kind = .alreadyExists then pure ()
                else throw error
            return some (← perform (.openDir parent name))
          else return none
        else throw error : Io (Option Ino))
  if create && child.isSome then
    perform (.syncDir parent)
  return child

def openControl (root : FsRoot) (create : Bool) : Io (Option ControlDir) := do
  match ← openOrCreateChild root.dir ".weavatrix" create with
  | none => return none
  | some weavatrix =>
      match ← openOrCreateChild weavatrix "worktree" create with
      | none => return none
      | some dir => return some ⟨dir, root.device⟩

end FsRoot

end Worktree
