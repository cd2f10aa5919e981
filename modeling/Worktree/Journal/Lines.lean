import Worktree.Journal.Writer
import Mathlib.Data.List.TakeWhile
/-
What the bytes of a journal say.

A journal is a line for each record; whatever follows the last newline is no
line yet. Reading gives back exactly the records that were written.
-/

namespace Worktree

open CrashLogic

section

variable {T : Type} (crates : Crates T)

/-! ### Lines -/

def storedText (schema : JournalSchema) (seq : Nat) (record : Record) : Bytes :=
  crates.stored.encode
    { schema := schema.asStr
      seq
      record
      checksum := checksum crates schema.asStr seq record }

def textsFrom (schema : JournalSchema) : Nat → List Record → List Bytes
  | _, [] => []
  | seq, record :: rest => storedText crates schema seq record :: textsFrom schema (seq + 1) rest

def linesFrom (schema : JournalSchema) : Nat → List Record → Bytes
  | _, [] => []
  | seq, record :: rest => Writer.line crates schema seq record ++ linesFrom schema (seq + 1) rest

def entriesFrom : Nat → List Record → List Entry
  | _, [] => []
  | seq, record :: rest => ⟨seq, record⟩ :: entriesFrom (seq + 1) rest

/-- The bytes a line takes besides its number. -/
def linesCost (schema : JournalSchema) : Nat → List Record → Nat
  | _, [] => 0
  | seq, record :: rest =>
      crates.storedCost schema.asStr record + digits seq + 1 + linesCost schema (seq + 1) rest

def Record.isHeader : Record → Bool
  | .header .. => true
  | _ => false

/-- The header comes first and only there. -/
def Ordered : Nat → List Record → Prop
  | _, [] => True
  | seq, record :: rest => (record.isHeader = true ↔ seq = 0) ∧ Ordered (seq + 1) rest

theorem validateOrder_ok (seq line : Nat) (record : Record) :
    validateOrder seq record line = .ok () ↔ (record.isHeader = true ↔ seq = 0) := by
  cases seq with
  | zero => cases record <;> simp [validateOrder, Record.isHeader]
  | succ seq => cases record <;> simp [validateOrder, Record.isHeader]

theorem ordered_append (seq : Nat) (records more : List Record) :
    Ordered seq (records ++ more) ↔ Ordered seq records ∧ Ordered (seq + records.length) more := by
  induction records generalizing seq with
  | nil => simp [Ordered]
  | cons record rest ih =>
      have shifted : seq + 1 + rest.length = seq + (rest.length + 1) := by omega
      simp only [List.cons_append, Ordered, ih, List.length_cons, shifted, and_assoc]

theorem linesFrom_append (schema : JournalSchema) (seq : Nat) (records more : List Record) :
    linesFrom crates schema seq (records ++ more) =
      linesFrom crates schema seq records ++
        linesFrom crates schema (seq + records.length) more := by
  induction records generalizing seq with
  | nil => simp [linesFrom]
  | cons record rest ih =>
      have shifted : seq + 1 + rest.length = seq + (rest.length + 1) := by omega
      simp only [List.cons_append, linesFrom, ih, List.length_cons, shifted, List.append_assoc]

theorem linesFrom_snoc (schema : JournalSchema) (records : List Record) (record : Record) :
    linesFrom crates schema 0 (records ++ [record]) =
      linesFrom crates schema 0 records ++ Writer.line crates schema records.length record := by
  rw [linesFrom_append]
  simp [linesFrom]

theorem linesCost_append (schema : JournalSchema) (seq : Nat) (records more : List Record) :
    linesCost crates schema seq (records ++ more) =
      linesCost crates schema seq records +
        linesCost crates schema (seq + records.length) more := by
  induction records generalizing seq with
  | nil => simp [linesCost]
  | cons record rest ih =>
      have shifted : seq + 1 + rest.length = seq + (rest.length + 1) := by omega
      simp only [List.cons_append, linesCost, ih, List.length_cons, shifted]
      omega

theorem line_eq (schema : JournalSchema) (seq : Nat) (record : Record) :
    Writer.line crates schema seq record = storedText crates schema seq record ++ [newline] := rfl

theorem storedText_length (schema : JournalSchema) (seq : Nat) (record : Record) :
    (storedText crates schema seq record).length =
      crates.storedCost schema.asStr record + digits seq :=
  crates.stored_length schema.asStr seq record _

theorem line_length (schema : JournalSchema) (seq : Nat) (record : Record) :
    (Writer.line crates schema seq record).length =
      crates.storedCost schema.asStr record + digits seq + 1 := by
  rw [line_eq, List.length_append, storedText_length]
  rfl

theorem linesFrom_length (schema : JournalSchema) (seq : Nat) (records : List Record) :
    (linesFrom crates schema seq records).length = linesCost crates schema seq records := by
  induction records generalizing seq with
  | nil => rfl
  | cons record rest ih => rw [linesFrom, List.length_append, line_length, ih, linesCost]

theorem length_le_linesCost (schema : JournalSchema) (seq : Nat) (records : List Record) :
    records.length ≤ linesCost crates schema seq records := by
  induction records generalizing seq with
  | nil => exact Nat.le_refl _
  | cons record rest ih =>
      have tail := ih (seq + 1)
      rw [List.length_cons, linesCost]
      omega

theorem entriesFrom_records (seq : Nat) (records : List Record) :
    (entriesFrom seq records).map Entry.record = records := by
  induction records generalizing seq with
  | nil => rfl
  | cons record rest ih => rw [entriesFrom, List.map_cons, ih]

theorem entriesFrom_length (seq : Nat) (records : List Record) :
    (entriesFrom seq records).length = records.length := by
  have counted := congrArg List.length (entriesFrom_records seq records)
  rwa [List.length_map] at counted

theorem newline_notMem_storedText (schema : JournalSchema) (seq : Nat) (record : Record) :
    newline ∉ storedText crates schema seq record :=
  crates.stored.no_newline _

theorem newline_notMem_texts (schema : JournalSchema) (seq : Nat) (records : List Record) :
    ∀ text ∈ textsFrom crates schema seq records, newline ∉ text := by
  induction records generalizing seq with
  | nil =>
      intro text among
      cases among
  | cons record rest ih =>
      intro text among
      rcases List.mem_cons.mp among with rfl | later
      · exact newline_notMem_storedText crates schema seq record
      · exact ih (seq + 1) text later

/-- The lines of a journal without the newline of the last one. -/
theorem linesFrom_intercalate (schema : JournalSchema) (seq : Nat) (record : Record)
    (rest : List Record) :
    linesFrom crates schema seq (record :: rest) =
      [newline].intercalate (textsFrom crates schema seq (record :: rest)) ++ [newline] := by
  induction rest generalizing seq record with
  | nil => simp [linesFrom, textsFrom, line_eq]
  | cons next rest ih =>
      rw [linesFrom, ih, line_eq]
      simp [textsFrom]

/-! ### Reading them back -/

theorem parseLine_storedText (expectedSchema : Option JournalSchema) (schema : JournalSchema)
    (seq : Nat) (record : Record) (same : ∀ found, expectedSchema = some found → found = schema)
    (ordered : record.isHeader = true ↔ seq = 0) :
    parseLine crates expectedSchema seq (storedText crates schema seq record) =
      .ok (schema, ⟨seq, record⟩) := by
  have nonempty : storedText crates schema seq record ≠ [] := crates.stored.encode_ne_nil _
  have decoded : crates.stored.decode (storedText crates schema seq record) = .ok _ :=
    crates.stored.decode_encode _
  have order : ∀ line, validateOrder seq record line = .ok () := fun line =>
    (validateOrder_ok seq line record).mpr ordered
  have agrees : expectedSchema.any (fun found => !decide (found = schema)) = false := by
    cases expectedSchema with
    | none => rfl
    | some found => simp [same found rfl]
  unfold parseLine
  simp [nonempty, decoded, order, agrees, bind, Except.bind, pure, Except.pure, Except.mapError]

theorem parseLines_texts (expectedSchema : Option JournalSchema) (schema : JournalSchema)
    (seq : Nat) (records : List Record)
    (same : ∀ found, expectedSchema = some found → found = schema) (ordered : Ordered seq records) :
    parseLines crates expectedSchema seq (textsFrom crates schema seq records) =
      .ok (if records = [] then expectedSchema else some schema, entriesFrom seq records) := by
  induction records generalizing seq expectedSchema with
  | nil => rfl
  | cons record rest ih =>
      have tail := ih (some schema) (seq + 1) (fun found isSame => (Option.some.inj isSame).symm)
        ordered.2
      rw [textsFrom, parseLines,
        parseLine_storedText crates expectedSchema schema seq record same ordered.1]
      simp only [bind, Except.bind, pure, Except.pure, tail]
      by_cases last : rest = []
      · simp [last, entriesFrom]
      · simp [last, entriesFrom]

theorem lastNewline_append (bytes tail : Bytes) (unfinished : newline ∉ tail) :
    lastNewline (bytes ++ [newline] ++ tail) = some bytes.length := by
  have reversed : (bytes ++ [newline] ++ tail).reverse =
      tail.reverse ++ newline :: bytes.reverse := by simp
  have taken : ((bytes ++ [newline] ++ tail).reverse.takeWhile fun byte => byte ≠ newline) =
      tail.reverse := by
    rw [reversed, List.takeWhile_append_of_pos]
    · simp
    · intro byte among
      have other : byte ≠ newline := fun same =>
        unfinished (same ▸ List.mem_reverse.mp among)
      simpa using other
  unfold lastNewline
  rw [taken]
  simp only [List.length_append, List.length_reverse, List.length_cons, List.length_nil]
  rw [if_neg (by omega)]
  exact congrArg some (by omega)

theorem lastNewline_none (tail : Bytes) (unfinished : newline ∉ tail) :
    lastNewline tail = none := by
  have taken : (tail.reverse.takeWhile fun byte => byte ≠ newline) = tail.reverse := by
    rw [List.takeWhile_eq_self_iff]
    intro byte among
    have other : byte ≠ newline := fun same =>
      unfinished (same ▸ List.mem_reverse.mp among)
    simpa using other
  unfold lastNewline
  rw [taken, List.length_reverse, if_pos rfl]

/-- Reading stops at the last newline. -/
theorem lastNewline_lines (schema : JournalSchema) (records : List Record) (tail : Bytes)
    (unfinished : newline ∉ tail) :
    (lastNewline (linesFrom crates schema 0 records ++ tail)).elim 0 (· + 1) =
      (linesFrom crates schema 0 records).length := by
  cases records with
  | nil => simp [linesFrom, lastNewline_none tail unfinished]
  | cons record rest =>
      rw [linesFrom_intercalate, lastNewline_append _ _ unfinished]
      simp

def readSchema (schema : JournalSchema) (records : List Record) : JournalSchema :=
  if records = [] then .current else schema

/-- A journal reads as its records, whatever a torn write left behind them. -/
theorem parseBytes_lines (schema : JournalSchema) (records : List Record) (tail : Bytes)
    (ordered : Ordered 0 records) (unfinished : newline ∉ tail) :
    parseBytes crates (linesFrom crates schema 0 records ++ tail) =
      .ok (readSchema schema records, entriesFrom 0 records) := by
  cases records with
  | nil =>
      unfold parseBytes
      rw [linesFrom, List.nil_append, lastNewline_none tail unfinished]
      rfl
  | cons record rest =>
      unfold parseBytes parseComplete
      rw [linesFrom_intercalate, lastNewline_append _ _ unfinished]
      have cut : ∀ start : Bytes, (start ++ [newline] ++ tail).take start.length = start := by
        intro start
        rw [List.append_assoc, List.take_left']
        rfl
      have texts : textsFrom crates schema 0 (record :: rest) ≠ [] := List.cons_ne_nil _ _
      simp only [cut]
      rw [List.splitOn_intercalate newline
          (newline_notMem_texts crates schema 0 (record :: rest)) texts,
        parseLines_texts crates none schema 0 (record :: rest) (fun _ impossible => by
          cases impossible) ordered]
      simp [bind, Except.bind, pure, Except.pure, readSchema]

/-- What a torn write of a line leaves is the line or nothing but a tail. -/
theorem torn_line (schema : JournalSchema) (seq : Nat) (record : Record) (count : Nat) :
    (Writer.line crates schema seq record).take count = Writer.line crates schema seq record ∨
      newline ∉ (Writer.line crates schema seq record).take count := by
  by_cases whole : (Writer.line crates schema seq record).length ≤ count
  · exact .inl (List.take_of_length_le whole)
  · right
    rw [line_eq, List.length_append] at whole
    rw [line_eq, List.take_append_of_le_length (by
      simp only [List.length_cons, List.length_nil] at whole
      omega)]
    intro among
    exact newline_notMem_storedText crates schema seq record (List.mem_of_mem_take among)

end

end Worktree
