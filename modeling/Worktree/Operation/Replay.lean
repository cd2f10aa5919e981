import Worktree.Operation.Prepare
import Mathlib.Data.Finset.Card
/-
Replaying an operation journal: the records are taken in order, each is checked
against the phase and against everything before it, and the paths they name are
opened again.
-/

namespace Worktree

open CrashLogic

structure PresentSpec where
  sha256 : Sha256Hash
  bytes : Nat
  permissions : PortablePermissions
  identity : Option FileIdentity
  deriving DecidableEq

inductive StateSpec
  | absent
  | present (spec : PresentSpec)
  deriving DecidableEq

def StateSpec.present? : StateSpec → Option PresentSpec
  | .absent => none
  | .present spec => some spec

def StateSpec.isPresent (spec : StateSpec) : Bool :=
  spec.present?.isSome

structure RecoveryPath where
  index : Nat
  path : String
  access : TargetAccess
  before : StateSpec
  after : StateSpec
  stageName : Option String
  backupName : Option String
  stageIdentity : Option FileIdentity
  backupIdentity : Option FileIdentity
  staged : Bool
  deriving DecidableEq

structure ParsedJournal where
  transactionId : String
  paths : List RecoveryPath
  prepared : Bool
  commitIntents : Finset Nat
  rollbackIntents : Finset Nat
  rolledBack : Finset Nat
  finished : Option FinishOutcome

/-- The phase a record must be in. -/
inductive ReplayPhase
  | operations
  | paths
  | staged
  | prepared
  | commit
  | rollback
  | finished
  deriving DecidableEq, Repr

structure EndpointEvidence where
  sha256 : Sha256Hash
  bytes : Nat
  deriving DecidableEq

structure ExpectedPath where
  path : String
  before : Option EndpointEvidence
  after : Option EndpointEvidence
  deriving DecidableEq

structure Replay where
  root : FsRoot
  options : WorktreeOptions
  transactionId : String
  expectedOperationCount : Nat
  expectedPathCount : Nat
  phase : ReplayPhase
  operationCount : Nat
  expectedPaths : KeyMap ExpectedPath
  inputs : Finset String
  outputs : Finset String
  paths : List RecoveryPath
  pathKeys : Finset String
  stagedCount : Nat
  prepared : Bool
  commitIntents : Finset Nat
  committed : Finset Nat
  rollbackIntents : Finset Nat
  rolledBack : Finset Nat
  finished : Option FinishOutcome
  lastCommitIntent : Option Nat
  lastRollbackIntent : Option Nat

namespace Replay

def corrupt (message : String) : WorktreeError :=
  (WorktreeError.new .journalCorrupt .recover message).requiringRecovery

/-! ### The header -/

structure Header where
  transactionId : String
  operationCount : Nat
  pathCount : Nat

def parseHeader (entries : List Entry) (options : WorktreeOptions) :
    Except WorktreeError Header :=
  match entries with
  | ⟨_, .header transactionId contractHash operation operationCount pathCount⟩ :: _ =>
      if !isValidId transactionId || (Sha256Hash.parse contractHash).isNone || operation = "" ||
          operation.utf8ByteSize > options.limits.maxOperationBytes || operationCount = 0 ||
          pathCount = 0 || operationCount > options.limits.maxFiles ||
          pathCount > options.limits.maxFiles then
        .error (corrupt "invalid or over-limit operation journal header")
      else .ok ⟨transactionId, operationCount, pathCount⟩
  | _ => .error (corrupt "operation journal does not begin with a header")

def new (root : FsRoot) (options : WorktreeOptions) (header : Header) : Replay :=
  { root
    options
    transactionId := header.transactionId
    expectedOperationCount := header.operationCount
    expectedPathCount := header.pathCount
    phase := .operations
    operationCount := 0
    expectedPaths := {}
    inputs := ∅
    outputs := ∅
    paths := []
    pathKeys := ∅
    stagedCount := 0
    prepared := false
    commitIntents := ∅
    committed := ∅
    rollbackIntents := ∅
    rolledBack := ∅
    finished := none
    lastCommitIntent := none
    lastRollbackIntent := none }

def requirePhase (actual expected : ReplayPhase) (record : String) : Except WorktreeError Unit :=
  if actual = expected then .ok ()
  else .error (corrupt (record ++ " appeared in the wrong phase"))

def require (condition : Bool) (message : String) : Except WorktreeError Unit :=
  if condition then .ok () else .error (corrupt message)

/-! ### Operations -/

def parseKind (kind : String) : Except WorktreeError OperationKind :=
  if kind = "MODIFY" then .ok .modify
  else if kind = "CREATE" then .ok .create
  else if kind = "DELETE" then .ok .delete
  else if kind = "RENAME" then .ok .rename
  else .error (corrupt "unknown operation journal kind")

def validShape (kind : OperationKind) (source destination oldSha256 newSha256 : Option String)
    (bytesBefore bytesAfter editCount : Nat) : Bool :=
  match kind with
  | .modify => source.isSome && destination.isNone && oldSha256.isSome && newSha256.isSome
  | .create =>
      source.isNone && destination.isSome && oldSha256.isNone && newSha256.isSome &&
        bytesBefore = 0 && editCount = 0
  | .delete =>
      source.isSome && destination.isNone && oldSha256.isSome && newSha256.isNone &&
        bytesAfter = 0 && editCount = 0
  | .rename => source.isSome && destination.isSome && oldSha256.isSome && newSha256.isSome

section

variable {T : Type} (crates : Crates T)

/-- Adds one end of an operation to the map of paths and to the set of its role. -/
def registerEndpoint (path : String) (before : Bool) (sha256 : String) (bytes : Nat)
    (paths : KeyMap ExpectedPath) (roles : Finset String) :
    Except WorktreeError (KeyMap ExpectedPath × Finset String) := do
  (crates.validatePlanPath path 4096).mapError fun _ => corrupt "unsafe operation journal path"
  let key := crates.portablePathKey path
  require (key ∉ roles) "multiple journal operations use the same path role"
  let expected := paths[key]?.getD ⟨path, none, none⟩
  require (expected.path = path) "operation journal paths alias portably"
  let sha256 ← fromOption (Sha256Hash.parse sha256) (corrupt "invalid endpoint hash")
  let evidence : EndpointEvidence := ⟨sha256, bytes⟩
  let expected := if before then { expected with before := some evidence }
    else { expected with after := some evidence }
  return (paths.insert key expected, insert key roles)

def registerSource (replay : Replay) (source oldSha256 : Option String) (bytes : Nat) :
    Except WorktreeError Replay :=
  match source, oldSha256 with
  | some source, some hash => do
      let (expectedPaths, inputs) ←
        registerEndpoint crates source true hash bytes replay.expectedPaths replay.inputs
      return { replay with expectedPaths, inputs }
  | _, _ => .ok replay

def registerOutput (replay : Replay) (destination newSha256 : Option String) (bytes : Nat) :
    Except WorktreeError Replay :=
  match destination, newSha256 with
  | some destination, some hash => do
      let (expectedPaths, outputs) ←
        registerEndpoint crates destination false hash bytes replay.expectedPaths replay.outputs
      return { replay with expectedPaths, outputs }
  | _, _ => .ok replay

def validateOperation (replay : Replay) (kind : String)
    (source destination oldSha256 newSha256 : Option String)
    (bytesBefore bytesAfter editCount : Nat) : Except WorktreeError Replay := do
  let kind ← parseKind kind
  let limits := replay.options.limits
  require (validShape kind source destination oldSha256 newSha256 bytesBefore bytesAfter
      editCount && bytesBefore ≤ limits.maxSourceBytesPerFile &&
      bytesAfter ≤ limits.maxOutputBytesPerFile && editCount ≤ limits.maxEditsPerFile &&
      oldSha256.all (fun value => (Sha256Hash.parse value).isSome) &&
      newSha256.all fun value => (Sha256Hash.parse value).isSome)
    "invalid or over-limit operation journal evidence"
  let replay ← registerSource crates replay source oldSha256 bytesBefore
  registerOutput crates replay (if kind = .modify then source else destination) newSha256
    bytesAfter

def applyOperation (replay : Replay) (index : Nat) (kind : String)
    (source destination oldSha256 newSha256 : Option String)
    (bytesBefore bytesAfter editCount : Nat) : Except WorktreeError Replay := do
  requirePhase replay.phase .operations "Operation"
  require (index = replay.operationCount && index < replay.expectedOperationCount)
    "operation records must have contiguous indices"
  let replay ← validateOperation crates replay kind source destination oldSha256 newSha256
    bytesBefore bytesAfter editCount
  return { replay with operationCount := replay.operationCount + 1 }

/-! ### Paths -/

def parseState (record : StateRecord) (options : WorktreeOptions) (requireIdentity : Bool) :
    Except WorktreeError StateSpec :=
  match record with
  | .absent => .ok .absent
  | .present sha256 bytes permissions identity => do
      let limit := if requireIdentity then options.limits.maxSourceBytesPerFile
        else options.limits.maxOutputBytesPerFile
      require (bytes ≤ limit && !(requireIdentity && identity.isNone))
        "invalid or over-limit operation path state"
      let sha256 ← fromOption (Sha256Hash.parse sha256)
        (corrupt "invalid operation path state SHA-256")
      return .present ⟨sha256, bytes, permissions, identity⟩

def validateArtifactContract (transactionId : String) (index : Nat) (before after : StateSpec)
    (stageName backupName : Option String) : Except WorktreeError Unit :=
  require (stageName = (if after.isPresent then some (artifactName transactionId index "stage")
      else none) &&
    backupName = (if before.isPresent then some (artifactName transactionId index "backup")
      else none) && !(before = .absent && after = .absent))
    "operation artifact names do not match their path transition"

def matchesEndpoint : Option EndpointEvidence → StateSpec → Bool
  | none, .absent => true
  | some expected, .present actual =>
      expected.sha256 = actual.sha256 && expected.bytes = actual.bytes
  | none, .present _ => false
  | some _, .absent => false

def validateExpectedPath (expected : KeyMap ExpectedPath) (path : String)
    (before after : StateSpec) : Except WorktreeError Unit :=
  match expected[crates.portablePathKey path]? with
  | none => .error (corrupt "journal path is not owned by an operation")
  | some expected =>
      require (expected.path = path && matchesEndpoint expected.before before &&
        matchesEndpoint expected.after after)
        "journal path transition contradicts its operation"

def validateExpectedPaths (expected : KeyMap ExpectedPath) (actual : List RecoveryPath) :
    Except WorktreeError Unit := do
  require (expected.size = actual.length) "journal path intents do not match operations"
  actual.forM fun path => validateExpectedPath crates expected path.path path.before path.after

/-- The first path record closes the operations. -/
def enterPaths (replay : Replay) : Except WorktreeError Replay :=
  if replay.phase = .operations then do
    require (replay.operationCount = replay.expectedOperationCount)
      "PathIntent appeared before every Operation"
    return { replay with phase := .paths }
  else .ok replay

/-- The checks of a path intent; the states it announces, and its key noted. -/
def checkIntent (replay : Replay) (index : Nat) (path : String) (before after : StateRecord)
    (stageName backupName : Option String) :
    Except WorktreeError (Replay × StateSpec × StateSpec) := do
  let replay ← replay.enterPaths
  requirePhase replay.phase .paths "PathIntent"
  require (index = replay.paths.length && index < replay.expectedPathCount)
    "path records must have contiguous indices"
  (crates.validatePlanPath path 4096).mapError fun _ =>
    corrupt "journal contains an unsafe path"
  let key := crates.portablePathKey path
  require (key ∉ replay.pathKeys) "journal paths alias portably"
  require (∀ other ∈ replay.pathKeys, other < key) "journal paths are not in deterministic order"
  let before ← parseState before replay.options true
  let after ← parseState after replay.options false
  validateExpectedPath crates replay.expectedPaths path before after
  validateArtifactContract replay.transactionId index before after stageName backupName
  return ({ replay with pathKeys := insert key replay.pathKeys }, before, after)

def reopenError (transactionId path : String) (index : Nat) (error : IoError) : WorktreeError :=
  (((WorktreeError.withSource .recoveryRequired .recover
    "failed to reopen an operation journal path" error.message).atPath path).atFile
    index).inTransaction transactionId |>.requiringRecovery

def pathIntent (replay : Replay) (index : Nat) (path : String) (before after : StateRecord)
    (stageName backupName : Option String) : Action Replay := do
  let (replay, before, after) ← liftWorktree
    (checkIntent crates replay index path before after stageName backupName)
  let access ← orElse (replay.root.openTarget crates path)
    (reopenError replay.transactionId path index)
  return { replay with
    paths := replay.paths ++ [
      { index
        path
        access
        before
        after
        stageName
        backupName
        stageIdentity := none
        backupIdentity := none
        staged := false }] }

def validateStagedIdentity (path : RecoveryPath)
    (stageIdentity backupIdentity : Option FileIdentity) : Except WorktreeError Unit :=
  require (stageIdentity.isSome = path.after.isPresent &&
    backupIdentity.isSome = path.before.isPresent &&
    (path.after.present?.bind PresentSpec.identity).all fun identity =>
      some identity = stageIdentity)
    "PathStaged identities do not match PathIntent"

/-- The first staged record closes the path intents. -/
def enterStaged (replay : Replay) : Except WorktreeError Replay :=
  if replay.phase = .paths then do
    require (replay.expectedPathCount = replay.paths.length)
      "PathStaged appeared before every PathIntent"
    return { replay with phase := .staged }
  else .ok replay

def pathStaged (replay : Replay) (index : Nat)
    (stageIdentity backupIdentity : Option FileIdentity) : Except WorktreeError Replay := do
  let replay ← replay.enterStaged
  requirePhase replay.phase .staged "PathStaged"
  match replay.paths[replay.stagedCount]? with
  | none => throw (corrupt "PathStaged exceeds the declared path count")
  | some path =>
      require (path.index = index && !path.staged) "PathStaged is duplicate or out of order"
      validateStagedIdentity path stageIdentity backupIdentity
      return { replay with
        paths := replay.paths.set replay.stagedCount
          { path with stageIdentity, backupIdentity, staged := true }
        stagedCount := replay.stagedCount + 1 }

def applyPrepared (replay : Replay) (operationCount pathCount : Nat) :
    Except WorktreeError Replay := do
  requirePhase replay.phase .staged "Prepared"
  require (operationCount = replay.expectedOperationCount &&
    pathCount = replay.expectedPathCount &&
    replay.operationCount = replay.expectedOperationCount &&
    replay.expectedPathCount = replay.paths.length &&
    replay.stagedCount = replay.paths.length)
    "Prepared does not cover the complete operation plan"
  validateExpectedPaths crates replay.expectedPaths replay.paths
  return { replay with prepared := true, phase := .prepared }

/-! ### Commit and rollback -/

def validatePathIndex (index : Nat) (paths : List RecoveryPath) : Except WorktreeError Unit :=
  require (index < paths.length) "journal record references an unknown path index"

def commitIntent (replay : Replay) (index : Nat) : Except WorktreeError Replay := do
  require (replay.phase = .prepared || replay.phase = .commit)
    "CommitIntent appeared outside the commit phase"
  validatePathIndex index replay.paths
  require (replay.lastCommitIntent.all (fun previous => previous ∈ replay.committed) &&
    index ∉ replay.commitIntents && replay.lastCommitIntent.all fun previous => previous < index)
    "CommitIntent is duplicate or out of order"
  return { replay with
    commitIntents := insert index replay.commitIntents
    lastCommitIntent := some index
    phase := .commit }

def applyCommitted (replay : Replay) (index : Nat) : Except WorktreeError Replay := do
  requirePhase replay.phase .commit "Committed"
  require (index ∈ replay.commitIntents && index ∉ replay.committed &&
    replay.lastCommitIntent = some index)
    "Committed lacks its unique latest intent"
  return { replay with committed := insert index replay.committed }

def rollbackIntent (replay : Replay) (index : Nat) : Except WorktreeError Replay := do
  require ((replay.phase = .commit || replay.phase = .rollback) &&
    index ∈ replay.commitIntents &&
    replay.lastRollbackIntent.all (fun previous => previous ∈ replay.rolledBack) &&
    index ∉ replay.rollbackIntents &&
    replay.lastRollbackIntent.all fun previous => index < previous)
    "RollbackIntent is duplicate or out of order"
  return { replay with
    rollbackIntents := insert index replay.rollbackIntents
    lastRollbackIntent := some index
    phase := .rollback }

def applyRolledBack (replay : Replay) (index : Nat) : Except WorktreeError Replay := do
  requirePhase replay.phase .rollback "RolledBack"
  require (index ∈ replay.rollbackIntents && index ∉ replay.rolledBack &&
    replay.lastRollbackIntent = some index)
    "RolledBack lacks its unique latest intent"
  return { replay with rolledBack := insert index replay.rolledBack }

def validateFinished (outcome : FinishOutcome) (prepared : Bool) (pathCount : Nat)
    (intents committed : Finset Nat) : Except WorktreeError Unit :=
  require (match outcome with
    | .committed => prepared && committed.card = pathCount && intents = committed
    | .aborted => intents = ∅
    | .rolledBack => prepared && intents ≠ ∅)
    "Finished outcome contradicts the operation journal state"

def applyFinished (replay : Replay) (outcome : FinishOutcome) : Except WorktreeError Replay := do
  validateFinished outcome replay.prepared replay.paths.length replay.commitIntents
    replay.committed
  return { replay with finished := some outcome, phase := .finished }

/-! ### All records -/

def applyRecord (replay : Replay) (record : Record) : Action Replay := do
  if replay.phase = .finished then
    throw (corrupt "operation journal contains records after Finished")
  match record with
  | .operation index kind source destination oldSha256 newSha256 bytesBefore bytesAfter
      editCount =>
      liftWorktree (applyOperation crates replay index kind source destination oldSha256
        newSha256 bytesBefore bytesAfter editCount)
  | .pathIntent index path before after stageName backupName =>
      replay.pathIntent crates index path before after stageName backupName
  | .pathStaged index stageIdentity backupIdentity =>
      liftWorktree (replay.pathStaged index stageIdentity backupIdentity)
  | .prepared operationCount pathCount =>
      liftWorktree (applyPrepared crates replay operationCount pathCount)
  | .commitIntent index => liftWorktree (replay.commitIntent index)
  | .committed index => liftWorktree (replay.applyCommitted index)
  | .rollbackIntent index => liftWorktree (replay.rollbackIntent index)
  | .rolledBack index => liftWorktree (replay.applyRolledBack index)
  | .finished outcome => liftWorktree (replay.applyFinished outcome)
  | .header .. => throw (corrupt "duplicate operation journal header")

def applyRecords : Replay → List Record → Action Replay
  | replay, [] => return replay
  | replay, record :: rest => do
      let replay ← applyRecord crates replay record
      applyRecords replay rest

def finish (replay : Replay) : Except WorktreeError ParsedJournal := do
  if replay.prepared then
    validateExpectedPaths crates replay.expectedPaths replay.paths
  return { transactionId := replay.transactionId
           paths := replay.paths
           prepared := replay.prepared
           commitIntents := replay.commitIntents
           rollbackIntents := replay.rollbackIntents
           rolledBack := replay.rolledBack
           finished := replay.finished }

end

end Replay

def parseJournal {T : Type} (crates : Crates T) (root : FsRoot) (entries : List Entry)
    (options : WorktreeOptions) : Action ParsedJournal := do
  let header ← liftWorktree (Replay.parseHeader entries options)
  let replay ← Replay.applyRecords crates (.new root options header) (entries.tail.map Entry.record)
  liftWorktree (replay.finish crates)

end Worktree
