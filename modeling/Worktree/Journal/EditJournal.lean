import Worktree.Journal.Writer
/-
The journal of edit plans: the lines of an operation journal under a schema of
its own, with records of its own.
-/

namespace Worktree

open CrashLogic

namespace Edit

def schema : String := "weavatrix.worktree-journal.v1"

structure JournalEntry where
  seq : Nat
  record : JournalRecord
  deriving DecidableEq

structure JournalWriter where
  file : Ino
  nextSeq : Nat
  bytes : Nat
  maxBytes : Nat
  poisoned : Bool
  deriving DecidableEq

def journalIo {τ : Type} (call : FsCall τ) : JournalIo τ :=
  ExceptT.adapt (fun error => "journal I/O failed: " ++ error.message) (perform call)

def validateOrder (seq : Nat) (record : JournalRecord) (line : Nat) : Except JournalError Unit :=
  match seq, record with
  | 0, .header .. => .ok ()
  | 0, _ => .error ("first record must be header at line " ++ toString line)
  | _, .header .. => .error ("duplicate header at line " ++ toString line)
  | _, _ => .ok ()

def requireLimit (maxBytes : Nat) : Except JournalError Unit :=
  if maxBytes = 0 then .error "journal byte limit must be positive" else .ok ()

def tooLarge (maxBytes actual : Nat) : JournalError :=
  "journal is " ++ toString actual ++ " bytes; limit is " ++ toString maxBytes

section

variable {T : Type} (crates : Crates T)

def checksum (seq : Nat) (record : JournalRecord) : String :=
  (crates.sha256 (utf8 schema ++ leBytes seq ++ crates.editRecord.encode record)).display

/-! ### Reading -/

def parseLine (expected : Nat) (line : Bytes) : Except JournalError JournalEntry := do
  let lineNumber := expected + 1
  if line = [] then throw ("empty record at line " ++ toString lineNumber)
  let stored ← (crates.storedEdit.decode line).mapError fun error =>
    "invalid JSON at line " ++ toString lineNumber ++ ": " ++ error
  if stored.schema ≠ schema then throw ("unknown schema at line " ++ toString lineNumber)
  if stored.seq ≠ expected then
    throw ("sequence gap at line " ++ toString lineNumber ++ ": expected " ++
      toString expected ++ ", got " ++ toString stored.seq)
  validateOrder stored.seq stored.record lineNumber
  if stored.checksum ≠ checksum crates stored.seq stored.record then
    throw ("checksum mismatch at line " ++ toString lineNumber)
  return ⟨stored.seq, stored.record⟩

/-- Lines in order, each numbered by the entries before it. -/
def parseLines : Nat → List Bytes → Except JournalError (List JournalEntry)
  | _, [] => return []
  | expected, line :: rest => do
      let entry ← parseLine crates expected line
      return entry :: (← parseLines (expected + 1) rest)

def parseComplete (bytes : Bytes) : Except JournalError (List JournalEntry) :=
  parseLines crates 0 (bytes.splitOn newline)

def parseBytes (bytes : Bytes) : Except JournalError (List JournalEntry) :=
  match lastNewline bytes with
  | none => .ok []
  | some last => parseComplete crates (bytes.take last)

def readJournal (file : Ino) (maxBytes : Nat) : JournalIo (List JournalEntry) := do
  liftJournal (requireLimit maxBytes)
  let metadata ← journalIo (.metadata file)
  if metadata.length > maxBytes then throw (tooLarge maxBytes metadata.length)
  journalIo (.cloneHandle file)
  let bytes ← journalIo (.read file (saturatingAdd maxBytes 1))
  if bytes.length > maxBytes then throw (tooLarge maxBytes bytes.length)
  liftJournal (parseBytes crates bytes)

/-! ### Writing -/

namespace JournalWriter

def new (file : Ino) (maxBytes : Nat) : JournalIo JournalWriter := do
  liftJournal (requireLimit maxBytes)
  let metadata ← journalIo (.metadata file)
  if metadata.length ≠ 0 then
    throw ("new journal is not empty (" ++ toString metadata.length ++ " bytes)")
  return { file
           nextSeq := 0
           bytes := 0
           maxBytes
           poisoned := false }

def line (seq : Nat) (record : JournalRecord) : Bytes :=
  crates.storedEdit.encode ⟨schema, seq, record, checksum crates seq record⟩ ++ [newline]

/-- The writer outlives a failed append, poisoned or not. -/
def append (record : JournalRecord) :
    ExceptT JournalError (StateT JournalWriter (Task FsOp)) Nat := do
  let writer ← get
  if writer.poisoned then throw "journal writer is poisoned"
  ExceptT.mk (pure (validateOrder writer.nextSeq record (saturatingAdd writer.nextSeq 1)))
  let seq := writer.nextSeq
  let line := line crates seq record
  let actual := saturatingAdd writer.bytes line.length
  if actual > writer.maxBytes then
    ExceptT.lift (StateT.lift (Task.perform .refuseAppend))
    throw (tooLarge writer.maxBytes actual)
  set { writer with poisoned := true }
  ExceptT.mk (StateT.lift (journalIo (.write writer.file line)).run)
  ExceptT.mk (StateT.lift (journalIo (.syncFile writer.file)).run)
  set { writer with poisoned := true, bytes := actual }
  match checkedAdd seq 1 with
  | none => throw "sequence overflow"
  | some nextSeq =>
      set { writer with poisoned := false, bytes := actual, nextSeq }
      return seq

def resume (file : Ino) (maxBytes : Nat) : JournalIo JournalWriter := do
  let entries ← readJournal crates file maxBytes
  let bytes ← journalIo (.read file (saturatingAdd maxBytes 1))
  if bytes.length > maxBytes then throw (tooLarge maxBytes bytes.length)
  let completeLength := (lastNewline bytes).elim 0 (· + 1)
  journalIo (.setLength file completeLength)
  return { file
           nextSeq := entries.length
           bytes := completeLength
           maxBytes
           poisoned := false }

end JournalWriter

end

/-! ### Operations with the errors of a transaction -/

abbrev Journaled := ExceptT WorktreeError (StateT JournalWriter (Task FsOp))

/-- An action that leaves the writer alone. -/
def beside {α : Type} (action : Action α) : Journaled α :=
  ExceptT.mk (StateT.lift action.run)

def appendOr {T : Type} (crates : Crates T) (record : JournalRecord)
    (wrap : JournalError → WorktreeError) : Journaled Unit :=
  ExceptT.adapt wrap (do let _ ← JournalWriter.append crates record)

end Edit

end Worktree
