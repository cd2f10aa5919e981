import Worktree.Filesystem.Target
/-
The operation journal as a file: one checksummed line for each record.

A writer appends a line, synchronizes it and only then counts it; a failure on
the way leaves it poisoned. Reading ignores what follows the last newline, and
resuming cuts it off.
-/

namespace Worktree

open CrashLogic

abbrev JournalError := String

def currentSchema : String := "weavatrix.worktree-journal.v3"

def legacySchema : String := "weavatrix.worktree-journal.v2"

inductive JournalSchema
  | v2
  | v3
  deriving DecidableEq, Repr

namespace JournalSchema

def current : JournalSchema := .v3

def asStr : JournalSchema → String
  | .v2 => legacySchema
  | .v3 => currentSchema

def parse (value : String) : Except JournalError JournalSchema :=
  if value = legacySchema then .ok .v2
  else if value = currentSchema then .ok .v3
  else .error ("unknown operation journal schema " ++ value.quote)

@[simp] theorem parse_asStr (schema : JournalSchema) : parse schema.asStr = .ok schema := by
  cases schema with
  | v2 => rfl
  | v3 => decide

end JournalSchema

structure Entry where
  seq : Nat
  record : Record
  deriving DecidableEq

structure Writer where
  file : Ino
  schema : JournalSchema
  nextSeq : Nat
  bytes : Nat
  maxBytes : Nat
  poisoned : Bool
  deriving DecidableEq

/-- Reading and writing journals, below the errors of a transaction. -/
abbrev JournalIo := ExceptT JournalError (Task FsOp)

def journalIo {τ : Type} (call : FsCall τ) : JournalIo τ :=
  ExceptT.adapt (fun error => "operation journal I/O failed: " ++ error.message) (perform call)

def liftJournal {α : Type} (result : Except JournalError α) : JournalIo α :=
  ExceptT.mk (pure result)

def validateOrder (seq : Nat) (record : Record) (line : Nat) : Except JournalError Unit :=
  match seq, record with
  | 0, .header .. => .ok ()
  | 0, _ => .error ("first operation record must be header at line " ++ toString line)
  | _, .header .. => .error ("duplicate operation header at line " ++ toString line)
  | _, _ => .ok ()

def requireLimit (maxBytes : Nat) : Except JournalError Unit :=
  if maxBytes = 0 then .error "operation journal byte limit must be positive" else .ok ()

def tooLarge (maxBytes actual : Nat) : JournalError :=
  "operation journal is " ++ toString actual ++ " bytes; limit is " ++ toString maxBytes

def newline : UInt8 := 10

/-- The place of the last newline. -/
def lastNewline (bytes : Bytes) : Option Nat :=
  let tail := (bytes.reverse.takeWhile fun byte => byte ≠ newline).length
  if tail = bytes.length then none else some (bytes.length - tail - 1)

section

variable {T : Type} (crates : Crates T)

def checksum (schema : String) (seq : Nat) (record : Record) : String :=
  (crates.sha256 (utf8 schema ++ leBytes seq ++ crates.record.encode record)).display

/-! ### Reading -/

def parseLine (expectedSchema : Option JournalSchema) (expected : Nat) (line : Bytes) :
    Except JournalError (JournalSchema × Entry) := do
  let lineNumber := expected + 1
  if line = [] then
    throw ("empty operation record at line " ++ toString lineNumber)
  let stored ← (crates.stored.decode line).mapError fun error =>
    "invalid operation JSON at line " ++ toString lineNumber ++ ": " ++ error
  let schema ← (JournalSchema.parse stored.schema).mapError fun error =>
    error ++ " at line " ++ toString lineNumber
  if expectedSchema.any (· ≠ schema) then
    throw ("operation journal schema changes at line " ++ toString lineNumber)
  if stored.seq ≠ expected then
    throw ("operation sequence gap at line " ++ toString lineNumber ++ ": expected " ++
      toString expected ++ ", got " ++ toString stored.seq)
  validateOrder stored.seq stored.record lineNumber
  if stored.checksum ≠ checksum crates schema.asStr stored.seq stored.record then
    throw ("operation checksum mismatch at line " ++ toString lineNumber)
  return (schema, ⟨stored.seq, stored.record⟩)

/-- Lines in order, each numbered by the entries before it. -/
def parseLines : Option JournalSchema → Nat → List Bytes →
    Except JournalError (Option JournalSchema × List Entry)
  | schema, _, [] => return (schema, [])
  | schema, expected, line :: rest => do
      let (found, entry) ← parseLine crates schema expected line
      let (schema, entries) ← parseLines (some found) (expected + 1) rest
      return (schema, entry :: entries)

def parseComplete (bytes : Bytes) : Except JournalError (JournalSchema × List Entry) := do
  let (schema, entries) ← parseLines crates none 0 (bytes.splitOn newline)
  return (schema.getD .current, entries)

def parseBytes (bytes : Bytes) : Except JournalError (JournalSchema × List Entry) :=
  match lastNewline bytes with
  | none => .ok (.current, [])
  | some last => parseComplete crates (bytes.take last)

def readWithSchema (file : Ino) (maxBytes : Nat) : JournalIo (JournalSchema × List Entry) := do
  liftJournal (requireLimit maxBytes)
  let metadata ← journalIo (.metadata file)
  if metadata.length > maxBytes then throw (tooLarge maxBytes metadata.length)
  journalIo (.cloneHandle file)
  let bytes ← journalIo (.read file (saturatingAdd maxBytes 1))
  if bytes.length > maxBytes then throw (tooLarge maxBytes bytes.length)
  liftJournal (parseBytes crates bytes)

def read (file : Ino) (maxBytes : Nat) : JournalIo (List Entry) := do
  return (← readWithSchema crates file maxBytes).2

/-! ### Writing -/

namespace Writer

def new (file : Ino) (maxBytes : Nat) : JournalIo Writer := do
  liftJournal (requireLimit maxBytes)
  let metadata ← journalIo (.metadata file)
  if metadata.length ≠ 0 then
    throw ("new operation journal is not empty (" ++ toString metadata.length ++ " bytes)")
  return { file
           schema := .current
           nextSeq := 0
           bytes := 0
           maxBytes
           poisoned := false }

def line (schema : JournalSchema) (seq : Nat) (record : Record) : Bytes :=
  crates.stored.encode
    { schema := schema.asStr
      seq
      record
      checksum := checksum crates schema.asStr seq record } ++ [newline]

/-- The writer outlives a failed append, poisoned or not. -/
def append (record : Record) : ExceptT JournalError (StateT Writer (Task FsOp)) Nat := do
  let writer ← get
  if writer.poisoned then throw "operation journal writer is poisoned"
  ExceptT.mk (pure (validateOrder writer.nextSeq record (saturatingAdd writer.nextSeq 1)))
  let seq := writer.nextSeq
  let line := line crates writer.schema seq record
  let actual := saturatingAdd writer.bytes line.length
  if actual > writer.maxBytes then
    ExceptT.lift (StateT.lift (Task.perform .refuseAppend))
    throw (tooLarge writer.maxBytes actual)
  set { writer with poisoned := true }
  ExceptT.mk (StateT.lift (journalIo (.write writer.file line)).run)
  ExceptT.mk (StateT.lift (journalIo (.syncFile writer.file)).run)
  set { writer with poisoned := true, bytes := actual }
  match checkedAdd seq 1 with
  | none => throw "operation journal sequence overflow"
  | some nextSeq =>
      set { writer with poisoned := false, bytes := actual, nextSeq }
      return seq

def resume (file : Ino) (maxBytes : Nat) : JournalIo Writer := do
  let (schema, entries) ← readWithSchema crates file maxBytes
  let bytes ← journalIo (.read file (saturatingAdd maxBytes 1))
  if bytes.length > maxBytes then throw (tooLarge maxBytes bytes.length)
  let completeLength := (lastNewline bytes).elim 0 (· + 1)
  journalIo (.setLength file completeLength)
  return { file
           schema
           nextSeq := entries.length
           bytes := completeLength
           maxBytes
           poisoned := false }

end Writer

end

/-! ### Operations with the errors of a transaction -/

abbrev Action := ExceptT WorktreeError (Task FsOp)

abbrev Journaled := ExceptT WorktreeError (StateT Writer (Task FsOp))

def orElse {α : Type} (action : Io α) (wrap : IoError → WorktreeError) : Action α :=
  ExceptT.adapt wrap action

def orJournal {α : Type} (action : JournalIo α) (wrap : JournalError → WorktreeError) : Action α :=
  ExceptT.adapt wrap action

/-- An action that leaves the writer alone. -/
def beside {α : Type} (action : Action α) : Journaled α :=
  ExceptT.mk (StateT.lift action.run)

def appendOr {T : Type} (crates : Crates T) (record : Record)
    (wrap : JournalError → WorktreeError) : Journaled Unit :=
  ExceptT.adapt wrap (do let _ ← Writer.append crates record)

end Worktree
