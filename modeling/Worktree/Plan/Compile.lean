import Worktree.Crates
import Std.Data.TreeMap.Lemmas
/-
From the operations of a plan to one transition for each path.

Every operation consumes the path it reads and produces the path it writes; a
path may be consumed once and produced once, and both only by one modify or by
two renames.
-/

namespace Worktree

inductive InputRole
  | modify
  | delete
  | renameSource (destination : String)
  deriving DecidableEq

inductive PlannedInput
  | absent
  | present (operationIndex : Nat) (expectedSha256 : Sha256Hash) (role : InputRole)

inductive PlannedOutput (T : Type)
  | absent
  | modify (operationIndex : Nat) (file : FileEdit T)
  | create (operationIndex : Nat) (file : CreateFile)
  | rename (operationIndex : Nat) (source : String) (expectedSourceSha256 : Sha256Hash)
      (edits : List T)

structure PathTransition (T : Type) where
  path : String
  before : PlannedInput
  after : PlannedOutput T

inductive InputEndpoint (T : Type)
  | modify (index : Nat) (file : FileEdit T)
  | delete (index : Nat) (file : DeleteFile)
  | rename (index : Nat) (file : RenameFile T)

inductive OutputEndpoint (T : Type)
  | modify (index : Nat) (file : FileEdit T)
  | create (index : Nat) (file : CreateFile)
  | rename (index : Nat) (file : RenameFile T)

def InputEndpoint.index {T : Type} : InputEndpoint T → Nat
  | .modify index _ => index
  | .delete index _ => index
  | .rename index _ => index

def OutputEndpoint.index {T : Type} : OutputEndpoint T → Nat
  | .modify index _ => index
  | .create index _ => index
  | .rename index _ => index

abbrev KeyMap (α : Type) := Std.TreeMap String α

structure Compiler (T : Type) where
  paths : KeyMap String
  inputs : KeyMap (InputEndpoint T)
  outputs : KeyMap (OutputEndpoint T)

def invalidInvariant (message : String) (index : Nat) : WorktreeError :=
  (WorktreeError.new .invalidPlan .validate message).atFile index

section

variable {T : Type}

def insertInput (values : KeyMap (InputEndpoint T)) (key : String) (value : InputEndpoint T)
    (index : Nat) : Except WorktreeError (KeyMap (InputEndpoint T)) :=
  if values.contains key then
    .error (invalidInvariant "validated plan consumes one path more than once" index)
  else .ok (values.insert key value)

def insertOutput (values : KeyMap (OutputEndpoint T)) (key : String) (value : OutputEndpoint T)
    (index : Nat) : Except WorktreeError (KeyMap (OutputEndpoint T)) :=
  if values.contains key then
    .error (invalidInvariant "validated plan produces one path more than once" index)
  else .ok (values.insert key value)

def allowedRoles : InputEndpoint T → OutputEndpoint T → Bool
  | .modify left _, .modify right _ => left = right
  | .rename .., .rename .. => true
  | _, _ => false

def validateCrossRoles (inputs : KeyMap (InputEndpoint T)) (outputs : KeyMap (OutputEndpoint T))
    (paths : KeyMap String) : Except WorktreeError Unit :=
  inputs.toList.forM fun (key, input) =>
    match outputs[key]? with
    | none => pure ()
    | some output =>
        if allowedRoles input output then pure ()
        else throw (invalidInvariant
          ("validated plan has incompatible roles for " ++ paths.getD key "")
          (max input.index output.index))

def parseValidatedHash (value : String) (index : Nat) : Except WorktreeError Sha256Hash :=
  match Sha256Hash.parse value with
  | some hash => .ok hash
  | none => .error ((WorktreeError.withSource .invalidPlan .validate
      "validated refactor plan contains a malformed SHA-256"
      "SHA-256 must contain 64 lowercase hexadecimal characters").atFile index)

def plannedInput : InputEndpoint T → Except WorktreeError PlannedInput
  | .modify index file => do
      return .present index (← parseValidatedHash file.sha256 index) .modify
  | .delete index file => do
      return .present index (← parseValidatedHash file.expectedSha256 index) .delete
  | .rename index file => do
      return .present index (← parseValidatedHash file.expectedSourceSha256 index)
        (.renameSource file.to)

def plannedOutput : OutputEndpoint T → Except WorktreeError (PlannedOutput T)
  | .modify index file => return .modify index file
  | .create index file => return .create index file
  | .rename index file => do
      return .rename index file.from
        (← parseValidatedHash file.expectedSourceSha256 index) file.edits

def buildTransition (inputs : KeyMap (InputEndpoint T)) (outputs : KeyMap (OutputEndpoint T))
    (key path : String) : Except WorktreeError (PathTransition T) := do
  let before ← match inputs[key]? with
    | some input => plannedInput input
    | none => pure .absent
  let after ← match outputs[key]? with
    | some output => plannedOutput output
    | none => pure .absent
  return ⟨path, before, after⟩

/-- Transitions in the order of the portable keys. -/
def buildTransitions (paths : KeyMap String) (inputs : KeyMap (InputEndpoint T))
    (outputs : KeyMap (OutputEndpoint T)) : Except WorktreeError (List (PathTransition T)) :=
  paths.toList.mapM fun (key, path) => buildTransition inputs outputs key path

namespace Compiler

def new : Compiler T := ⟨{}, {}, {}⟩

variable (crates : Crates T)

def registerPath (compiler : Compiler T) (path : String) : Compiler T :=
  { compiler with paths := compiler.paths.insertIfNew (crates.portablePathKey path) path }

def modify (compiler : Compiler T) (index : Nat) (file : FileEdit T) :
    Except WorktreeError (Compiler T) := do
  let compiler := compiler.registerPath crates file.path
  let key := crates.portablePathKey file.path
  let inputs ← insertInput compiler.inputs key (.modify index file) index
  let outputs ← insertOutput compiler.outputs key (.modify index file) index
  return { compiler with inputs, outputs }

def create (compiler : Compiler T) (index : Nat) (file : CreateFile) :
    Except WorktreeError (Compiler T) := do
  let compiler := compiler.registerPath crates file.path
  let outputs ← insertOutput compiler.outputs (crates.portablePathKey file.path)
    (.create index file) index
  return { compiler with outputs }

def delete (compiler : Compiler T) (index : Nat) (file : DeleteFile) :
    Except WorktreeError (Compiler T) := do
  let compiler := compiler.registerPath crates file.path
  let inputs ← insertInput compiler.inputs (crates.portablePathKey file.path)
    (.delete index file) index
  return { compiler with inputs }

def rename (compiler : Compiler T) (index : Nat) (file : RenameFile T) :
    Except WorktreeError (Compiler T) := do
  let compiler := (compiler.registerPath crates file.from).registerPath crates file.to
  let inputs ← insertInput compiler.inputs (crates.portablePathKey file.from)
    (.rename index file) index
  let outputs ← insertOutput compiler.outputs (crates.portablePathKey file.to)
    (.rename index file) index
  return { compiler with inputs, outputs }

def register (compiler : Compiler T) (index : Nat) :
    WorktreeOperation T → Except WorktreeError (Compiler T)
  | .modify file => compiler.modify crates index file
  | .create file => compiler.create crates index file
  | .delete file => compiler.delete crates index file
  | .rename file => compiler.rename crates index file

def registerAll (compiler : Compiler T) :
    Nat → List (WorktreeOperation T) → Except WorktreeError (Compiler T)
  | _, [] => return compiler
  | index, operation :: rest => do
      let compiler ← compiler.register crates index operation
      registerAll compiler (index + 1) rest

def finish (compiler : Compiler T) : Except WorktreeError (List (PathTransition T)) := do
  validateCrossRoles compiler.inputs compiler.outputs compiler.paths
  buildTransitions compiler.paths compiler.inputs compiler.outputs

end Compiler

def compilePlan (crates : Crates T) (plan : WorktreePlan T) :
    Except WorktreeError (List (PathTransition T)) := do
  let compiler ← Compiler.new.registerAll crates 0 plan.operations
  compiler.finish

end

end Worktree
