import Worktree.Crates
/-
Confined access to one path: a directory handle found by walking from the root
without following links, and the last name in it. Every check the program makes
before it touches a file is made here, call by call.
-/

namespace Worktree

open CrashLogic

def invalid (message : String) : IoError := ⟨.invalidInput, message⟩

def reservedRoots : List String := [".git", ".weavatrix"]

def Metadata.identity (metadata : Metadata) : FileIdentity :=
  ⟨metadata.device, metadata.inode⟩

def isLinkOrReparse (metadata : Metadata) : Bool :=
  metadata.kind = .symlink

def validateMetadata (metadata : Metadata) (rootDevice : Nat) : Except IoError Unit := do
  if metadata.kind ≠ .file then throw (invalid "target is not a regular file")
  if metadata.device ≠ rootDevice then throw (invalid "target crosses the worktree filesystem")
  if metadata.links ≠ 1 then throw (invalid "hard-linked targets are rejected")
  if Mode.readonly metadata.mode then
    throw ⟨.permissionDenied, "read-only targets are rejected"⟩

def artifactPrefix : String := ".weavatrix-"

def validateArtifactName (name : String) : Except IoError Unit :=
  if name = "" || name.toList.any (fun char => char = '/' || char = '\\') ||
      !hasPrefix name artifactPrefix then
    .error (invalid "invalid transaction artifact name")
  else .ok ()

/-- The segments of a path. -/
def splitPath (path : String) : List String :=
  (path.toList.splitOn '/').map String.ofList

structure FsRoot where
  dir : Ino
  device : Nat
  deriving DecidableEq

structure TargetSnapshot where
  source : Bytes
  identity : FileIdentity
  portablePermissions : PortablePermissions
  deriving DecidableEq

structure TargetProbe where
  bytes : Nat
  identity : FileIdentity
  permissions : PortablePermissions
  deriving DecidableEq

inductive SlotProbe
  | absent
  | present (probe : TargetProbe)
  deriving DecidableEq

inductive SlotSnapshot
  | absent
  | present (snapshot : TargetSnapshot)
  deriving DecidableEq

structure TargetAccess where
  parent : Ino
  name : String
  path : String
  rootDevice : Nat
  parentIdentity : ParentIdentity
  deriving DecidableEq

/-- The answer of a call whose failure is looked at, not passed on. -/
def attempt {α : Type} (action : Io α) : Io (Except IoError α) :=
  ExceptT.lift action.run

def liftExcept {α : Type} (result : Except IoError α) : Io α :=
  ExceptT.mk (pure result)

/-! ### Walking to the parent -/

def reservedRootIdentity (root : FsRoot) (name : String) : Io (Option FileIdentity) := do
  match ← attempt (perform (.symlinkMetadata root.dir name)) with
  | .ok metadata => return some metadata.identity
  | .error error =>
      if error.kind = .notFound then return none
      else throw error

def reservedRootIdentities (root : FsRoot) : Io (List (Option FileIdentity)) := do
  let git ← reservedRootIdentity root ".git"
  let weavatrix ← reservedRootIdentity root ".weavatrix"
  return [git, weavatrix]

def rejectReservedIdentity (metadata : Metadata) (reserved : List (Option FileIdentity)) :
    Except IoError Unit :=
  if reserved.contains (some metadata.identity) then
    .error (invalid "path resolves through a reserved worktree root")
  else .ok ()

def parentLinked : IoError := invalid "target parent is a symbolic link or reparse point"

def openSegment (parent : Ino) (segment : String) : Io Ino := do
  match ← attempt (perform (.openDir parent segment)) with
  | .ok dir => return dir
  | .error openError =>
      match ← attempt (perform (.symlinkMetadata parent segment)) with
      | .ok metadata => throw (if isLinkOrReparse metadata then parentLinked else openError)
      | .error _ => throw openError

def enterSegment (rootDevice : Nat) (reserved : List (Option FileIdentity)) (parent : Ino)
    (segment : String) : Io Ino := do
  let metadata ← perform (.symlinkMetadata parent segment)
  if isLinkOrReparse metadata then throw parentLinked
  let parent ← openSegment parent segment
  let metadata ← perform (.dirMetadata parent)
  if isLinkOrReparse metadata then throw parentLinked
  if metadata.device ≠ rootDevice then
    throw (invalid "target parent crosses the worktree filesystem")
  liftExcept (rejectReservedIdentity metadata reserved)
  return parent

/-- Enters every segment but the last. -/
def descend (rootDevice : Nat) (reserved : List (Option FileIdentity)) :
    Ino → List String → Io (Ino × Option String)
  | parent, [] => return (parent, none)
  | parent, [name] => return (parent, some name)
  | parent, segment :: rest => do
      let parent ← enterSegment rootDevice reserved parent segment
      descend rootDevice reserved parent rest

namespace TargetAccess

variable {T : Type} (crates : Crates T)

def «open» (root : FsRoot) (path : String) : Io TargetAccess := do
  liftExcept ((crates.validatePlanPath path 4096).mapError invalid)
  let first := (splitPath (crates.portablePathKey path)).headD ""
  if reservedRoots.contains first then
    throw (invalid "path is reserved for worktree transaction state")
  let reserved ← reservedRootIdentities root
  perform (.cloneHandle root.dir)
  let (parent, name) ← descend root.device reserved root.dir (splitPath path)
  let parentMetadata ← perform (.dirMetadata parent)
  if isLinkOrReparse parentMetadata || parentMetadata.device ≠ root.device then
    throw (invalid "target parent identity is not safe")
  let name ← liftExcept (name.elim (.error (invalid "target path has no file name")) .ok)
  match ← attempt (perform (.symlinkMetadata parent name)) with
  | .ok metadata => liftExcept (rejectReservedIdentity metadata reserved)
  | .error error =>
      if error.kind = .notFound then pure ()
      else throw error
  return { parent
           name
           path
           rootDevice := root.device
           parentIdentity := ⟨parentMetadata.device, parentMetadata.inode⟩ }

end TargetAccess

/-! ### Reading one slot -/

namespace TargetAccess

variable (access : TargetAccess)

def openFile : Io Ino := do
  let metadata ← perform (.symlinkMetadata access.parent access.name)
  if isLinkOrReparse metadata then
    throw (invalid "target is a symbolic link or reparse point")
  liftExcept (validateMetadata metadata access.rootDevice)
  let file ← perform (.openFile access.parent access.name .read)
  let opened ← perform (.metadata file)
  liftExcept (validateMetadata opened access.rootDevice)
  if opened.identity ≠ metadata.identity then
    throw (invalid "target identity changed while it was opened")
  return file

def snapshot (maxBytes : Nat) : Io TargetSnapshot := do
  let file ← access.openFile
  let metadata ← perform (.metadata file)
  liftExcept (validateMetadata metadata access.rootDevice)
  let limit ← liftExcept ((checkedAdd maxBytes 1).elim
    (.error (invalid "source byte limit overflow")) .ok)
  let source ← perform (.read file limit)
  if source.length > maxBytes then
    throw (invalid "source exceeds the per-file byte limit")
  return { source
           identity := metadata.identity
           portablePermissions := .fromPermissions metadata.mode }

def probe : Io TargetProbe := do
  let file ← access.openFile
  let metadata ← perform (.metadata file)
  liftExcept (validateMetadata metadata access.rootDevice)
  return ⟨metadata.length, metadata.identity, .fromPermissions metadata.mode⟩

def probeSlot : Io SlotProbe := do
  match ← attempt (perform (.symlinkMetadata access.parent access.name)) with
  | .error error =>
      if error.kind = .notFound then return .absent
      else throw error
  | .ok metadata =>
      if isLinkOrReparse metadata then
        throw (invalid "target is a symbolic link or reparse point")
      liftExcept (validateMetadata metadata access.rootDevice)
      return .present ⟨metadata.length, metadata.identity, .fromPermissions metadata.mode⟩

def snapshotSlot (maxBytes : Nat) : Io SlotSnapshot := do
  match ← access.probeSlot with
  | .absent => return .absent
  | .present _ => return .present (← access.snapshot maxBytes)

def slotEvidence (sha256 : Bytes → Sha256Hash) (maxBytes : Nat) : Io SlotEvidence := do
  match ← access.snapshotSlot maxBytes with
  | .absent => return .absent
  | .present snapshot =>
      return .present
        { sha256 := sha256 snapshot.source
          bytes := snapshot.source.length
          identity := snapshot.identity
          permissions := snapshot.portablePermissions }

def verifySlot (sha256 : Bytes → Sha256Hash) (expected : SlotEvidence) (maxBytes : Nat) :
    Io SlotEvidence := do
  let actual ← access.slotEvidence sha256 maxBytes
  if actual = expected then return actual
  else throw (invalid "target does not match its exact expected state")

def requireAbsent : Io Unit := do
  match ← access.probeSlot with
  | .absent => return ()
  | .present _ => throw ⟨.alreadyExists, "target must remain absent"⟩

def verifyParentHandle : Io ParentIdentity := do
  let metadata ← perform (.dirMetadata access.parent)
  if isLinkOrReparse metadata || metadata.device ≠ access.rootDevice then
    throw (invalid "target parent handle is no longer safe")
  let actual : ParentIdentity := ⟨metadata.device, metadata.inode⟩
  if actual ≠ access.parentIdentity then throw (invalid "target parent identity changed")
  return actual

def syncParent : Io Unit :=
  perform (.syncDir access.parent)

/-! ### Artifacts beside the slot -/

def createNew (name : String) : Io Ino := do
  liftExcept (validateArtifactName name)
  perform (.openFile access.parent name .createNew)

def openArtifact (name : String) : Io Ino := do
  liftExcept (validateArtifactName name)
  perform (.openFile access.parent name .read)

def readArtifact (name : String) (maxBytes : Nat) : Io Bytes := do
  let file ← access.openArtifact name
  let metadata ← perform (.metadata file)
  if metadata.kind ≠ .file || metadata.device ≠ access.rootDevice || metadata.links ≠ 1 then
    throw (invalid "transaction artifact identity is not safe")
  let limit ← liftExcept ((checkedAdd maxBytes 1).elim
    (.error (invalid "artifact byte limit overflow")) .ok)
  let bytes ← perform (.read file limit)
  if bytes.length > maxBytes then
    throw (invalid "transaction artifact exceeds its byte limit")
  return bytes

def safeArtifactIdentity (artifact : String) (expectedLinks : Nat) : Io FileIdentity := do
  liftExcept (validateArtifactName artifact)
  let metadata ← perform (.symlinkMetadata access.parent artifact)
  if isLinkOrReparse metadata || metadata.kind ≠ .file ||
      metadata.device ≠ access.rootDevice || metadata.links ≠ expectedLinks then
    throw (invalid "transaction artifact identity is not safe")
  return metadata.identity

def artifactEvidence (sha256 : Bytes → Sha256Hash) (artifact : String) (maxBytes : Nat) :
    Io PresentEvidence := do
  let bytes ← access.readArtifact artifact maxBytes
  let identity ← access.safeArtifactIdentity artifact 1
  let metadata ← perform (.symlinkMetadata access.parent artifact)
  return { sha256 := sha256 bytes
           bytes := bytes.length
           identity
           permissions := .fromPermissions metadata.mode }

def renameFrom (artifact : String) : Io Unit := do
  liftExcept (validateArtifactName artifact)
  perform (.rename access.parent artifact access.parent access.name)

def removeArtifact (name : String) : Io Bool := do
  liftExcept (validateArtifactName name)
  match ← attempt (perform (.symlinkMetadata access.parent name)) with
  | .error error =>
      if error.kind = .notFound then return false
      else throw error
  | .ok metadata =>
      if isLinkOrReparse metadata || metadata.kind ≠ .file ||
          metadata.device ≠ access.rootDevice || metadata.links ≠ 1 then
        throw (invalid "refusing to remove an unsafe transaction artifact")
      perform (.removeFile access.parent name)
      access.syncParent
      return true

/-! ### Installing, replacing and removing -/

/-- Detects the crash intermediate where target and stage are two links. -/
def sameFileAsArtifact (artifact : String) : Io Bool := do
  liftExcept (validateArtifactName artifact)
  let target ← perform (.symlinkMetadata access.parent access.name)
  let staged ← perform (.symlinkMetadata access.parent artifact)
  if isLinkOrReparse target || isLinkOrReparse staged then
    throw (invalid "linked install contains a link or reparse point")
  if target.kind ≠ .file || staged.kind ≠ .file || target.device ≠ access.rootDevice ||
      staged.device ≠ access.rootDevice then
    throw (invalid "linked install is not a safe regular file")
  return target.identity = staged.identity && target.links = 2 && staged.links = 2

/-- Performs and synchronizes only the no-clobber link step. -/
def linkAbsentFrom (artifact : String) : Io FileIdentity := do
  liftExcept (validateArtifactName artifact)
  access.requireAbsent
  let artifactIdentity ← access.safeArtifactIdentity artifact 1
  perform (.hardLink access.parent artifact access.parent access.name)
  access.syncParent
  if !(← access.sameFileAsArtifact artifact) then
    throw (invalid "installed destination does not alias its staged artifact")
  return artifactIdentity

/-- Completes a no-clobber install found at its two-link crash point. -/
def finishLinkedInstall (artifact : String) (expectedIdentity : FileIdentity) : Io Unit := do
  if !(← access.sameFileAsArtifact artifact) then
    throw (invalid "target is not the staged two-link install")
  perform (.removeFile access.parent artifact)
  access.syncParent
  let probe ← access.probe
  if probe.identity ≠ expectedIdentity then
    throw (invalid "installed destination identity changed during finalization")

/-- Installs a staged file only if the destination is still absent. -/
def installAbsentFrom (artifact : String) : Io Unit := do
  let artifactIdentity ← access.linkAbsentFrom artifact
  access.finishLinkedInstall artifact artifactIdentity

/-- Reverses a no-clobber install found at its two-link crash point. -/
def rollbackLinkedInstall (artifact : String) : Io Unit := do
  if !(← access.sameFileAsArtifact artifact) then
    throw (invalid "target is not the staged two-link install")
  perform (.removeFile access.parent access.name)
  access.syncParent
  access.requireAbsent
  let _ ← access.safeArtifactIdentity artifact 1

/-- Reads exact evidence from the two-link no-clobber crash intermediate. -/
def linkedArtifactEvidence (sha256 : Bytes → Sha256Hash) (artifact : String) (maxBytes : Nat) :
    Io PresentEvidence := do
  if !(← access.sameFileAsArtifact artifact) then
    throw (invalid "target is not the staged two-link install")
  let file ← access.openArtifact artifact
  let metadata ← perform (.metadata file)
  if isLinkOrReparse metadata || metadata.kind ≠ .file ||
      metadata.device ≠ access.rootDevice || metadata.links ≠ 2 then
    throw (invalid "linked install artifact is not safe")
  let limit ← liftExcept ((checkedAdd maxBytes 1).elim
    (.error (invalid "linked artifact byte limit overflow")) .ok)
  let bytes ← perform (.read file limit)
  if bytes.length > maxBytes then
    throw (invalid "linked transaction artifact exceeds its byte limit")
  let final ← perform (.metadata file)
  if final.identity ≠ metadata.identity || final.links ≠ 2 then
    throw (invalid "linked install changed while it was inspected")
  if !(← access.sameFileAsArtifact artifact) then
    throw (invalid "linked install changed while it was inspected")
  return { sha256 := sha256 bytes
           bytes := bytes.length
           identity := metadata.identity
           permissions := .fromPermissions metadata.mode }

/-- Atomically replaces a present target with a verified single-link artifact. -/
def replaceFrom (artifact : String) : Io Unit := do
  let _ ← access.safeArtifactIdentity artifact 1
  access.renameFrom artifact

/-- Removes a target only after checking its complete exact state. -/
def removeExact (sha256 : Bytes → Sha256Hash) (expected : PresentEvidence) (maxBytes : Nat) :
    Io Unit := do
  let _ ← access.verifySlot sha256 (.present expected) maxBytes
  perform (.removeFile access.parent access.name)
  access.syncParent
  access.requireAbsent

end TargetAccess

/-! ### The root -/

namespace FsRoot

variable {T : Type} (crates : Crates T)

def openTarget (root : FsRoot) (path : String) : Io TargetAccess :=
  TargetAccess.open crates root path

/-- Re-resolves a target parent from the root and compares its identity. -/
def revalidateParent (root : FsRoot) (target : TargetAccess) : Io Unit := do
  let _ ← target.verifyParentHandle
  let reopened ← root.openTarget crates target.path
  let _ ← reopened.verifyParentHandle
  if reopened.parentIdentity ≠ target.parentIdentity then
    throw (invalid "target parent path now resolves to another directory")

end FsRoot

end Worktree
