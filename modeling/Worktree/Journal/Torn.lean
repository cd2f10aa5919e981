import Worktree.Crates.Plain
import Worktree.Journal.Resuming
/-
The life of a journal file: appends that succeed, are refused or fail part of
the way, crashes anywhere, and writers resumed from what they left.

At every point the file is the lines of the records that survived, followed by
the front of one line at most.
-/

namespace Worktree

open CrashLogic

/-- What an open file holds. -/
structure World.Holds (world : World) (file : Ino) (bytes : Bytes) : Prop where
  kind : (world.inodes file).kind = .file
  bytes : (world.inodes file).bytes = bytes

section

variable {world : World} {file : Ino} {bytes : Bytes}

theorem World.Holds.append (holds : world.Holds file bytes) (more : Bytes) :
    (world.append file more).Holds file (bytes ++ more) := by
  unfold World.append World.setInode
  constructor
  · simp only [Function.update_self]
    exact holds.kind
  · simp only [Function.update_self, holds.bytes]

theorem World.Holds.resize {tail : Bytes} (holds : world.Holds file (bytes ++ tail)) :
    (world.resize file bytes.length).Holds file bytes := by
  unfold World.resize World.setInode
  constructor
  · simp only [Function.update_self]
    exact holds.kind
  · simp only [Function.update_self, holds.bytes, List.length_append]
    rw [List.take_left', Nat.sub_eq_zero_of_le (Nat.le_add_right ..)]
    · simp
    · rfl

end

namespace Journal

variable {T : Type} (crates : Crates T) {host : Host} {weather : Weather} {file : Ino}
  {maxBytes : Nat} {schema : JournalSchema} {records : List Record} {record : Record}
  {world left : World} {tail : Bytes}

/-! ### Appending -/

/-- The writer that has appended these records, and lost none. -/
def writer (file : Ino) (maxBytes : Nat) (schema : JournalSchema) (records : List Record) :
    Writer :=
  { file
    schema
    nextSeq := records.length
    bytes := linesCost crates schema 0 records
    maxBytes
    poisoned := false }

/-- The record may come next, and there is room for its line. -/
def Admits (writer : Writer) (record : Record) : Prop :=
  (record.isHeader = true ↔ writer.nextSeq = 0) ∧
    writer.bytes + (Writer.line crates writer.schema writer.nextSeq record).length ≤
      writer.maxBytes

/-- Some of the line came to the file, and only of a line that may come. -/
def Partly (file : Ino) (maxBytes : Nat) (schema : JournalSchema) (records : List Record)
    (record : Record) (left : World) : Prop :=
  ∃ written, written <+: Writer.line crates schema records.length record ∧
    left.Holds file (linesFrom crates schema 0 records ++ written) ∧
    (written = [] ∨ Admits crates (writer crates file maxBytes schema records) record)

theorem partly_nothing (holds : world.Holds file (linesFrom crates schema 0 records)) :
    Partly crates file maxBytes schema records record world := by
  refine ⟨[], List.nil_prefix, ?_, .inl rfl⟩
  rw [List.append_nil]
  exact holds

/-- How an append of a writer in step ends. -/
def Appended (file : Ino) (maxBytes : Nat) (schema : JournalSchema) (records : List Record)
    (record : Record) (start : World) : Except JournalError Nat × Writer → World → Prop
  | (.ok seq, after), finish =>
      seq = records.length ∧ Admits crates (writer crates file maxBytes schema records) record ∧
        after = writer crates file maxBytes schema (records ++ [record]) ∧
        finish.Holds file (linesFrom crates schema 0 (records ++ [record]))
  | (.error _, after), finish =>
      (¬ Admits crates (writer crates file maxBytes schema records) record ∧
        after = writer crates file maxBytes schema records ∧ finish = start) ∨
      (Admits crates (writer crates file maxBytes schema records) record ∧
        after.poisoned = true ∧ after.file = file ∧
        Partly crates file maxBytes schema records record finish)

theorem append_meets (bounded : maxBytes < u64Max)
    (holds : world.Holds file (linesFrom crates schema 0 records)) :
    ((Writer.append crates record).run.run (writer crates file maxBytes schema records)).Meets
      (fsMachine host weather)
      ((fsMachine host weather).Survives (Partly crates file maxBytes schema records record))
      (Appended crates file maxBytes schema records record world) world := by
  unfold Writer.append
  rw [Task.meets_session_bind, Task.meets_session_get]
  have sound : ¬ (writer crates file maxBytes schema records).poisoned = true :=
    Bool.false_ne_true
  have here : Partly crates file maxBytes schema records record world := partly_nothing crates holds
  simp only [if_neg sound]
  rw [Task.meets_session_bind, Task.meets_session_result]
  cases valid : validateOrder (writer crates file maxBytes schema records).nextSeq record
      (saturatingAdd (writer crates file maxBytes schema records).nextSeq 1) with
  | error error =>
      left
      refine ⟨fun admits => ?_, rfl, rfl⟩
      rw [(validateOrder_ok _ _ _).mpr admits.1] at valid
      cases valid
  | ok value =>
      have order := (validateOrder_ok _ _ _).mp valid
      have sum : saturatingAdd (writer crates file maxBytes schema records).bytes
          (Writer.line crates (writer crates file maxBytes schema records).schema
            (writer crates file maxBytes schema records).nextSeq record).length =
          min (linesCost crates schema 0 records +
            (Writer.line crates schema records.length record).length) u64Max := rfl
      simp only [sum]
      by_cases fits : linesCost crates schema 0 records +
          (Writer.line crates schema records.length record).length ≤ maxBytes
      · have admits : Admits crates (writer crates file maxBytes schema records) record :=
          ⟨order, fits⟩
        have total : min (linesCost crates schema 0 records +
            (Writer.line crates schema records.length record).length) u64Max =
            linesCost crates schema 0 records +
              (Writer.line crates schema records.length record).length := by omega
        have small : ¬ linesCost crates schema 0 records +
            (Writer.line crates schema records.length record).length >
            (writer crates file maxBytes schema records).maxBytes := Nat.not_lt_of_le fits
        have torn : ∀ count, Partly crates file maxBytes schema records record (world.append file
            ((Writer.line crates schema records.length record).take count)) :=
          fun count => ⟨_, List.take_prefix .., holds.append _, .inr admits⟩
        have whole : Partly crates file maxBytes schema records record (world.append file
            (Writer.line crates schema records.length record)) :=
          ⟨_, List.prefix_rfl, holds.append _, .inr admits⟩
        simp only [total, if_neg small]
        rw [Task.meets_session_bind, Task.meets_session_set]
        dsimp only
        rw [Task.meets_session_bind, Task.meets_session_lift, Logbook.meets_journalIo]
        refine ⟨⟨here, ?_⟩, fun answer middle stepped => ?_⟩
        · rintro _ ⟨count, rfl⟩
          exact torn count
        · rcases stepped with executed | ⟨_, error, rfl, came, _⟩
          · cases executed
            dsimp only [Except.mapError]
            rw [Task.meets_session_bind, Task.meets_session_lift, Logbook.meets_journalIo]
            refine ⟨⟨whole, fun _ => False.elim⟩, fun answer last synced => ?_⟩
            have same := (quiet_syncFile file _).2 answer last synced
            subst same
            cases answer with
            | error error => exact .inr ⟨admits, rfl, rfl, whole⟩
            | ok value =>
                dsimp only [Except.mapError]
                rw [Task.meets_session_bind, Task.meets_session_set]
                have room : checkedAdd (writer crates file maxBytes schema records).nextSeq 1 =
                    some (records.length + 1) := by
                  have counted := length_le_linesCost crates schema 0 records
                  have line := line_length crates schema records.length record
                  have less : records.length + 1 ≤ u64Max := by omega
                  exact if_pos less
                dsimp only
                rw [room]
                dsimp only
                rw [Task.meets_session_bind, Task.meets_session_set]
                refine ⟨rfl, admits, ?_, ?_⟩
                · have cost : linesCost crates schema 0 (records ++ [record]) =
                      linesCost crates schema 0 records +
                        (Writer.line crates schema records.length record).length := by
                    rw [linesCost_append, line_length]
                    simp [linesCost]
                  simp only [writer, cost, List.length_append, List.length_singleton]
                · rw [linesFrom_snoc]
                  exact holds.append _
          · rcases came with rfl | ⟨rfl, _⟩ | ⟨count, rfl⟩
            · exact .inr ⟨admits, rfl, rfl, here⟩
            · exact .inr ⟨admits, rfl, rfl, whole⟩
            · exact .inr ⟨admits, rfl, rfl, torn count⟩
      · have exceeds : min (linesCost crates schema 0 records +
            (Writer.line crates schema records.length record).length) u64Max >
            (writer crates file maxBytes schema records).maxBytes := by
          change maxBytes < _
          omega
        simp only [if_pos exceeds]
        rw [Task.meets_session_bind, Task.meets_session_task, Task.meets_perform]
        refine ⟨⟨here, ?_⟩, ?_⟩
        · rintro _ rfl
          exact here
        · rintro _ _ ⟨_, rfl⟩
          left
          exact ⟨fun admits => fits admits.2, rfl, rfl⟩

/-- A poisoned writer writes nothing. -/
theorem append_poisoned {broken : Writer} (poisoned : broken.poisoned = true) :
    (Writer.append crates record).run.run broken =
      .done (.error "operation journal writer is poisoned", broken) := by
  unfold Writer.append
  change (if broken.poisoned = true then _ else _ :
    ExceptT JournalError (StateT Writer (Task FsOp)) Nat).run.run broken = _
  rw [if_pos poisoned]
  rfl

/-! ### Reading and resuming -/

/-- The lines of the records, and less than a line after them. -/
structure Front (file : Ino) (maxBytes : Nat) (schema : JournalSchema) (records : List Record)
    (tail : Bytes) (world : World) : Prop where
  holds : world.Holds file (linesFrom crates schema 0 records ++ tail)
  unfinished : newline ∉ tail
  ordered : Ordered 0 records
  short : (linesFrom crates schema 0 records ++ tail).length ≤ maxBytes

variable {crates}

theorem Front.parse (front : Front crates file maxBytes schema records tail world) :
    parseBytes crates (world.inodes file).bytes =
      .ok (readSchema schema records, entriesFrom 0 records) := by
  rw [front.holds.bytes]
  exact parseBytes_lines crates schema records tail front.ordered front.unfinished

theorem Front.taken (front : Front crates file maxBytes schema records tail world)
    (bounded : maxBytes < u64Max) :
    (world.inodes file).bytes.take (saturatingAdd maxBytes 1) = (world.inodes file).bytes := by
  have short := front.short
  rw [← front.holds.bytes] at short
  refine List.take_of_length_le ?_
  rw [saturatingAdd]
  omega

theorem Front.regular (front : Front crates file maxBytes schema records tail world) :
    ¬ (world.inodes file).kind = .directory := by
  rw [front.holds.kind]
  exact FileKind.noConfusion

/-- A call that answers leaves the rest to do; one that fails says so. -/
theorem journalIo_bind {τ α : Type} {guard : {ρ : Type} → FsOp ρ → World → Prop}
    {call : FsCall τ} {next : τ → JournalIo α} {post : Except JournalError α → World → Prop}
    {answer : τ} {after : World} (executes : call.exec host world = (.ok answer, after))
    (guarded : guard (.io call) world)
    (continues : (next answer).run.Meets (fsMachine host weather) guard post after)
    (fails : weather.fails → ∀ error finish, call.Fails host weather world (.error error) finish →
      ∀ other, post (.error other) finish) :
    (journalIo call >>= next).run.Meets (fsMachine host weather) guard post world := by
  rw [Task.meets_except_bind, Logbook.meets_journalIo]
  refine ⟨guarded, fun found finish stepped => ?_⟩
  rcases stepped with executed | failed
  · rw [executes] at executed
    cases executed
    exact continues
  · obtain ⟨fail, error, rfl, rest⟩ := failed
    exact fails fail error finish ⟨fail, error, rfl, rest⟩ _

theorem read_exec (bounded : maxBytes < u64Max)
    (front : Front crates file maxBytes schema records tail world) :
    (FsCall.read file (saturatingAdd maxBytes 1)).exec host world =
      (.ok (world.inodes file).bytes, world) := by
  simp only [FsCall.exec, if_neg front.regular, front.taken bounded]

/-- A call that changes nothing changes nothing when it fails. -/
theorem fails_same {τ : Type} {call : FsCall τ} {answer : Except IoError τ} {finish : World}
    (quiet : (fsMachine host weather).Quiet (.io call))
    (failed : call.Fails host weather world answer finish) : finish = world :=
  (quiet world).2 answer finish (.inr failed)

theorem readWithSchema_meets (bounded : maxBytes < u64Max) (positive : 0 < maxBytes)
    (front : Front crates file maxBytes schema records tail world)
    {guard : {ρ : Type} → FsOp ρ → World → Prop}
    (admits : (fsMachine host weather).Admits guard world) :
    (readWithSchema crates file maxBytes).run.Meets (fsMachine host weather) guard
      (fun result finish => finish = world ∧
        (result = .ok (readSchema schema records, entriesFrom 0 records) ∨
          weather.fails ∧ ∃ error, result = .error error)) world := by
  have limit : requireLimit maxBytes = .ok () := if_neg (by omega)
  have short : ¬ (world.inodes file).bytes.length > maxBytes := by
    rw [front.holds.bytes]
    exact Nat.not_lt_of_le front.short
  unfold readWithSchema
  rw [Task.meets_except_bind]
  change Task.Meets _ _ (pure (requireLimit maxBytes)) _ world
  rw [limit, Task.meets_pure]
  have measured : (FsCall.metadata file).exec host world =
      (.ok (world.seen file).metadata, world) := rfl
  have cloned : (FsCall.cloneHandle file).exec host world = (.ok (), world) := rfl
  refine journalIo_bind measured (admits _ (quiet_metadata file)) ?_
    fun fails error finish failed other => ?_
  · have below : ¬ (world.seen file).metadata.length > maxBytes := short
    rw [if_neg below]
    refine journalIo_bind cloned (admits _ (quiet_cloneHandle file)) ?_
      fun fails error finish failed other => ?_
    · refine journalIo_bind (read_exec bounded front) (admits _ (quiet_read file _)) ?_
        fun fails error finish failed other => ?_
      · rw [if_neg short]
        change Task.Meets _ _ (pure (parseBytes crates (world.inodes file).bytes)) _ world
        rw [front.parse]
        exact ⟨rfl, .inl rfl⟩
      · exact ⟨fails_same (quiet_read file _) failed, .inr ⟨fails, other, rfl⟩⟩
    · exact ⟨fails_same (quiet_cloneHandle file) failed, .inr ⟨fails, other, rfl⟩⟩
  · exact ⟨fails_same (quiet_metadata file) failed, .inr ⟨fails, other, rfl⟩⟩

/-- Calls that do not fail read the records that are there. -/
theorem read_run (bounded : maxBytes < u64Max) (positive : 0 < maxBytes)
    (front : Front crates file maxBytes schema records tail world) :
    (read crates file maxBytes).run.run (fsKernel host) world =
      (.ok (entriesFrom 0 records), world) := by
  have meets : (read crates file maxBytes).run.Meets (fsMachine host .calm) (fun _ _ => True)
      (fun result finish => result = .ok (entriesFrom 0 records) ∧ finish = world) world := by
    unfold read
    rw [Task.meets_except_bind]
    refine (readWithSchema_meets bounded positive front fun _ _ => trivial).mono ?_
    rintro result finish ⟨rfl, rfl | ⟨impossible, _⟩⟩
    · exact ⟨rfl, rfl⟩
    · exact impossible.elim
  exact Prod.ext_iff.mpr (meets.returns (returns_run trivial _ world))

/-- How a journal is resumed: cut to its lines, or left as it was. -/
theorem resume_meets (bounded : maxBytes < u64Max) (positive : 0 < maxBytes)
    (front : Front crates file maxBytes schema records tail world) :
    (Writer.resume crates file maxBytes).run.Meets (fsMachine host weather)
      ((fsMachine host weather).Survives fun left =>
        left.Holds file (linesFrom crates schema 0 records ++ tail) ∨
          left.Holds file (linesFrom crates schema 0 records))
      (fun result finish => match result with
        | .ok resumed => resumed = writer crates file maxBytes (readSchema schema records) records ∧
            finish.Holds file (linesFrom crates schema 0 records)
        | .error _ => finish.Holds file (linesFrom crates schema 0 records ++ tail) ∨
            finish.Holds file (linesFrom crates schema 0 records)) world := by
  have short : ¬ (world.inodes file).bytes.length > maxBytes := by
    rw [front.holds.bytes]
    exact Nat.not_lt_of_le front.short
  have resized : (world.resize file (linesFrom crates schema 0 records).length).Holds file
      (linesFrom crates schema 0 records) := front.holds.resize
  have admits : (fsMachine host weather).Admits ((fsMachine host weather).Survives fun left =>
      left.Holds file (linesFrom crates schema 0 records ++ tail) ∨
        left.Holds file (linesFrom crates schema 0 records)) world :=
    Machine.admits_survives (.inl front.holds)
  unfold Writer.resume
  rw [Task.meets_except_bind]
  refine (readWithSchema_meets bounded positive front admits).mono ?_
  rintro result finish ⟨rfl, rfl | ⟨_, error, rfl⟩⟩
  · dsimp only
    refine journalIo_bind (read_exec bounded front) (admits _ (quiet_read file _)) ?_
      fun fails error finish failed other => ?_
    · rw [if_neg short, front.holds.bytes,
        lastNewline_lines crates schema records tail front.unfinished]
      have cut : (FsCall.setLength file (linesFrom crates schema 0 records).length).exec host
          finish = (.ok (), finish.resize file (linesFrom crates schema 0 records).length) := rfl
      refine journalIo_bind cut ⟨.inl front.holds, fun _ => False.elim⟩ ?_
        fun fails error finish failed other => ?_
      · refine ⟨?_, resized⟩
        have same : linesCost crates (readSchema schema records) 0 records =
            (linesFrom crates schema 0 records).length := by
          unfold readSchema
          split
          · next none =>
              subst none
              rfl
          · rw [linesFrom_length]
        simp only [writer, entriesFrom_length, same]
      · obtain ⟨_, _, _, came, _⟩ := failed
        rcases came with rfl | ⟨rfl, _⟩ | torn
        · exact .inl front.holds
        · exact .inr resized
        · exact torn.elim
    · rw [fails_same (quiet_read file _) failed]
      exact .inl front.holds
  · exact .inl front.holds

/-! ### A life -/

/-- What became of the line of one append. -/
inductive Fate
  | acknowledged
  | landed
  | lost
  deriving DecidableEq

structure Attempt where
  record : Record
  fate : Fate

/-- The records whose lines are in the file. -/
def survivors (history : List Attempt) : List Record :=
  history.filterMap fun attempt => if attempt.fate = .lost then none else some attempt.record

theorem survivors_snoc (history : List Attempt) (attempt : Attempt) :
    survivors (history ++ [attempt]) =
      if attempt.fate = .lost then survivors history
      else survivors history ++ [attempt.record] := by
  unfold survivors
  rw [List.filterMap_append]
  by_cases lost : attempt.fate = .lost <;> simp [lost]

/-- A line that was not acknowledged landed when all of it came to the file. -/
def leftover (line before after : Bytes) : Fate :=
  if after = before ++ line then .landed else .lost

def fateOf (crates : Crates T) (writer : Writer) (record : Record) (start finish : World) :
    Except JournalError Nat → Fate
  | .ok _ => .acknowledged
  | .error _ =>
      leftover (Writer.line crates writer.schema writer.nextSeq record)
        (start.inodes writer.file).bytes (finish.inodes writer.file).bytes

/-- What a journal file goes through: it is created, with either schema, then
appends come back or are cut, the process or the machine goes down, and writers
are resumed, or try to be. -/
inductive Life (crates : Crates T) (host : Host) (weather : Weather) (file : Ino)
    (maxBytes : Nat) : List Attempt → Option Writer → World → Prop
  | create (schema : JournalSchema) (start world : World) (fresh : Writer)
      (regular : (start.inodes file).kind = .file)
      (created : (Writer.new file maxBytes).run.Returns (fsMachine host weather) start
        (.ok fresh) world) :
      Life crates host weather file maxBytes [] (some { fresh with schema }) world
  | append {history : List Attempt} {writer after : Writer} {world finish : World}
      (record : Record) (result : Except JournalError Nat)
      (life : Life crates host weather file maxBytes history (some writer) world)
      (returned : ((Writer.append crates record).run.run writer).Returns (fsMachine host weather)
        world (result, after) finish) :
      Life crates host weather file maxBytes
        (history ++ [⟨record, fateOf crates writer record world finish result⟩]) (some after)
        finish
  | cut {history : List Attempt} {writer : Writer} {world left : World} (record : Record)
      (life : Life crates host weather file maxBytes history (some writer) world)
      (crashed : ((Writer.append crates record).run.run writer).Crashes (fsMachine host weather)
        world left) :
      Life crates host weather file maxBytes
        (history ++ [⟨record, leftover
          (Writer.line crates writer.schema writer.nextSeq record)
          (world.inodes writer.file).bytes (left.inodes writer.file).bytes⟩]) none left.reboot
  | drop {history : List Attempt} {writer : Option Writer} {world : World}
      (life : Life crates host weather file maxBytes history writer world) :
      Life crates host weather file maxBytes history none world
  | crash {history : List Attempt} {writer : Option Writer} {world : World}
      (life : Life crates host weather file maxBytes history writer world) :
      Life crates host weather file maxBytes history none world.reboot
  | resume {history : List Attempt} {world finish : World} (result : Except JournalError Writer)
      (life : Life crates host weather file maxBytes history none world)
      (returned : (Writer.resume crates file maxBytes).run.Returns (fsMachine host weather)
        world result finish) :
      Life crates host weather file maxBytes history result.toOption finish
  | interrupted {history : List Attempt} {world left : World}
      (life : Life crates host weather file maxBytes history none world)
      (crashed : (Writer.resume crates file maxBytes).run.Crashes (fsMachine host weather)
        world left) :
      Life crates host weather file maxBytes history none left.reboot

/-- The writer is in step with the file, or will not write to it again. -/
def Fitting (crates : Crates T) (file : Ino) (maxBytes : Nat) (schema : JournalSchema)
    (records : List Record) (tail : Bytes) (current : Writer) : Prop :=
  (tail = [] ∧ current = writer crates file maxBytes schema records) ∨
    (current.poisoned = true ∧ current.file = file)

/-- What holds of a journal file all its life. -/
structure Sound (crates : Crates T) (file : Ino) (maxBytes : Nat) (records : List Record)
    (current : Option Writer) (world : World) : Prop where
  positive : 0 < maxBytes
  front : ∃ schema tail, Front crates file maxBytes schema records tail world ∧
    ∀ present, current = some present →
      Fitting crates file maxBytes schema records tail present

theorem line_ne_nil (schema : JournalSchema) (seq : Nat) (record : Record) :
    Writer.line crates schema seq record ≠ [] := by
  rw [line_eq]
  exact List.append_ne_nil_of_right_ne_nil _ (List.cons_ne_nil _ _)

/-- Nothing new is no line. -/
theorem leftover_same (schema : JournalSchema) (seq : Nat) (record : Record) (bytes : Bytes) :
    leftover (Writer.line crates schema seq record) bytes bytes = .lost := by
  unfold leftover
  rw [if_neg]
  intro same
  exact line_ne_nil schema seq record (List.append_right_eq_self.mp same.symm)

theorem ordered_snoc (ordered : Ordered 0 records)
    (order : record.isHeader = true ↔ records.length = 0) : Ordered 0 (records ++ [record]) := by
  refine (ordered_append 0 records [record]).mpr ⟨ordered, ?_, trivial⟩
  rw [order, Nat.zero_add]

/-- What came of a line is the line or the front of it, and the file says which. -/
theorem Partly.front (ordered : Ordered 0 records)
    (holds : world.Holds file (linesFrom crates schema 0 records))
    (short : (linesFrom crates schema 0 records).length ≤ maxBytes)
    (partly : Partly crates file maxBytes schema records record left) :
    ∃ tail, Front crates file maxBytes schema
      (if leftover (Writer.line crates schema records.length record) (world.inodes file).bytes
        (left.inodes file).bytes = .lost then records else records ++ [record]) tail left := by
  obtain ⟨written, begins, wrote, admits⟩ := partly
  unfold leftover
  rw [holds.bytes, wrote.bytes]
  have room : (linesFrom crates schema 0 records ++ written).length ≤ maxBytes := by
    rcases admits with rfl | admits
    · rw [List.append_nil]
      exact short
    · have total : linesCost crates schema 0 records +
          (Writer.line crates schema records.length record).length ≤ maxBytes := admits.2
      have shorter := begins.length_le
      rw [List.length_append, linesFrom_length]
      omega
  by_cases whole : written = Writer.line crates schema records.length record
  · subst whole
    rw [if_pos rfl, if_neg (by decide)]
    have order : record.isHeader = true ↔ records.length = 0 := by
      rcases admits with impossible | admits
      · exact absurd impossible (line_ne_nil schema records.length record)
      · exact admits.1
    rw [← linesFrom_snoc] at wrote room
    refine ⟨[], ?_, List.not_mem_nil, ordered_snoc ordered order, ?_⟩
    · rw [List.append_nil]
      exact wrote
    · rw [List.append_nil]
      exact room
  · rw [if_neg fun same => whole (List.append_cancel_left same), if_pos rfl]
    refine ⟨written, wrote, ?_, ordered, room⟩
    rw [List.prefix_iff_eq_take] at begins
    rw [begins]
    rcases torn_line crates schema records.length record written.length with same | unfinished
    · exact absurd (begins.trans same) whole
    · exact unfinished

theorem new_meets : (Writer.new file maxBytes).run.Meets (fsMachine host weather)
    (fun _ _ => True) (fun result finish => ∀ fresh, result = .ok fresh →
      finish = world ∧ (world.inodes file).bytes = [] ∧ 0 < maxBytes ∧
        fresh = { file, schema := .current, nextSeq := 0, bytes := 0, maxBytes,
                  poisoned := false }) world := by
  unfold Writer.new
  rw [Task.meets_except_bind]
  change Task.Meets _ _ (pure (requireLimit maxBytes)) _ world
  rw [Task.meets_pure]
  by_cases zero : maxBytes = 0
  · rw [requireLimit, if_pos zero]
    intro fresh impossible
    cases impossible
  · rw [requireLimit, if_neg zero]
    have measured : (FsCall.metadata file).exec host world =
        (.ok (world.seen file).metadata, world) := rfl
    refine journalIo_bind measured trivial ?_ fun _ _ _ _ _ fresh impossible => by
      cases impossible
    by_cases empty : (world.seen file).metadata.length = 0
    · rw [if_neg (not_not_intro empty)]
      rintro fresh ⟨rfl⟩
      exact ⟨rfl, List.length_eq_zero_iff.mp empty, by omega, rfl⟩
    · rw [if_pos empty]
      intro fresh impossible
      cases impossible

theorem Sound.forget {current : Option Writer}
    (sound : Sound crates file maxBytes records current world) :
    Sound crates file maxBytes records none world := by
  obtain ⟨schema, tail, front, _⟩ := sound.front
  exact ⟨sound.positive, schema, tail, front, fun _ impossible => by cases impossible⟩

theorem Sound.reboot {current : Option Writer}
    (sound : Sound crates file maxBytes records current world) :
    Sound crates file maxBytes records none world.reboot := by
  obtain ⟨schema, tail, front, _⟩ := sound.front
  exact ⟨sound.positive, schema, tail,
    { front with holds := ⟨front.holds.kind, front.holds.bytes⟩ },
    fun _ impossible => by cases impossible⟩

/-- An append of a writer in step, or of one that is poisoned. -/
theorem Sound.append {history : List Attempt} {present after : Writer} {finish : World}
    {result : Except JournalError Nat} (bounded : maxBytes < u64Max)
    (sound : Sound crates file maxBytes (survivors history) (some present) world)
    (returned : ((Writer.append crates record).run.run present).Returns (fsMachine host weather)
      world (result, after) finish) :
    Sound crates file maxBytes
      (survivors (history ++ [⟨record, fateOf crates present record world finish result⟩]))
      (some after) finish := by
  obtain ⟨positive, schema, tail, front, fitting⟩ := sound
  rw [survivors_snoc]
  dsimp only
  rcases fitting present rfl with ⟨rfl, rfl⟩ | ⟨poisoned, named⟩
  · have holds := front.holds
    have short := front.short
    rw [List.append_nil] at holds short
    have ended := (append_meets crates bounded holds).returns returned
    cases result with
    | ok seq =>
        obtain ⟨_, admits, rfl, wrote⟩ := ended
        refine ⟨positive, schema, [], ⟨?_, List.not_mem_nil, ordered_snoc front.ordered admits.1,
          ?_⟩, fun other same => ?_⟩
        · rw [List.append_nil]
          exact wrote
        · rw [List.append_nil]
          change (linesFrom crates schema 0 (survivors history ++ [record])).length ≤ maxBytes
          rw [linesFrom_snoc, List.length_append, linesFrom_length]
          exact admits.2
        · cases same
          exact .inl ⟨rfl, rfl⟩
    | error error =>
        rcases ended with ⟨_, rfl, rfl⟩ | ⟨_, poisoned, named, partly⟩
        · have lost : fateOf crates (writer crates file maxBytes schema (survivors history)) record
              finish finish (.error error) = .lost := leftover_same _ _ _ _
          rw [lost, if_pos rfl]
          exact ⟨positive, schema, [], front, fun other same => by
            cases same
            exact .inl ⟨rfl, rfl⟩⟩
        · obtain ⟨tail, left⟩ := Partly.front front.ordered holds short partly
          exact ⟨positive, schema, tail, left, fun other same => by
            cases same
            exact .inr ⟨poisoned, named⟩⟩
  · rw [append_poisoned crates poisoned] at returned
    obtain ⟨same, rfl⟩ := returned
    cases same
    have lost : fateOf crates present record finish finish
        (.error "operation journal writer is poisoned") = .lost := leftover_same _ _ _ _
    rw [lost, if_pos rfl]
    exact ⟨positive, schema, tail, front, fun other same => by
      cases same
      exact .inr ⟨poisoned, named⟩⟩

/-- A crash inside an append. -/
theorem Sound.cut {history : List Attempt} {present : Writer} (bounded : maxBytes < u64Max)
    (sound : Sound crates file maxBytes (survivors history) (some present) world)
    (crashed : ((Writer.append crates record).run.run present).Crashes (fsMachine host weather)
      world left) :
    Sound crates file maxBytes (survivors (history ++ [⟨record, leftover
      (Writer.line crates present.schema present.nextSeq record)
      (world.inodes present.file).bytes (left.inodes present.file).bytes⟩])) none left := by
  obtain ⟨positive, schema, tail, front, fitting⟩ := sound
  rw [survivors_snoc]
  dsimp only
  rcases fitting present rfl with ⟨rfl, rfl⟩ | ⟨poisoned, named⟩
  · have holds := front.holds
    have short := front.short
    rw [List.append_nil] at holds short
    have partly : Partly crates file maxBytes schema (survivors history) record left := by
      refine (append_meets crates bounded holds).crashes ?_ crashed
      rintro ⟨result | result, after⟩ finish ended
      · rcases ended with ⟨_, _, rfl⟩ | ⟨_, _, _, partly⟩
        · exact partly_nothing crates holds
        · exact partly
      · obtain ⟨_, admits, _, wrote⟩ := ended
        rw [linesFrom_snoc] at wrote
        exact ⟨_, List.prefix_rfl, wrote, .inr admits⟩
    obtain ⟨tail, came⟩ := Partly.front front.ordered holds short partly
    exact ⟨positive, schema, tail, came, fun _ impossible => by cases impossible⟩
  · rw [append_poisoned crates poisoned] at crashed
    have same : left = world := by
      cases crashed with
      | before made here reached => exact reached.elim
      | inside made here left reached torn => exact reached.elim
      | after result finish returned => exact returned.2
    subst same
    rw [leftover_same, if_pos rfl]
    exact ⟨positive, schema, tail, front, fun _ impossible => by cases impossible⟩

/-- Whether it comes back or not, a resumption leaves the lines as they are. -/
theorem Sound.resume {finish : World} {result : Except JournalError Writer}
    (bounded : maxBytes < u64Max) (sound : Sound crates file maxBytes records none world)
    (returned : (Writer.resume crates file maxBytes).run.Returns (fsMachine host weather)
      world result finish) :
    Sound crates file maxBytes records result.toOption finish := by
  obtain ⟨positive, schema, tail, front, _⟩ := sound
  have ended := (resume_meets bounded positive front).returns returned
  have trimmed : finish.Holds file (linesFrom crates schema 0 records) →
      Front crates file maxBytes schema records [] finish := by
    intro holds
    refine ⟨?_, List.not_mem_nil, front.ordered, ?_⟩
    · rw [List.append_nil]
      exact holds
    · have short := front.short
      rw [List.length_append] at short
      rw [List.append_nil]
      omega
  have renamed : Front crates file maxBytes (readSchema schema records) records [] finish →
      ∀ resumed : Writer,
        resumed = writer crates file maxBytes (readSchema schema records) records →
        Sound crates file maxBytes records (some resumed) finish := by
    rintro cut resumed rfl
    exact ⟨positive, _, [], cut, fun present same => by
      cases same
      exact .inl ⟨rfl, rfl⟩⟩
  cases result with
  | ok resumed =>
      obtain ⟨made, holds⟩ := ended
      have cut := trimmed holds
      refine renamed ?_ resumed made
      unfold readSchema
      split
      · next none =>
          subst none
          exact { cut with holds := cut.holds, short := cut.short }
      · exact cut
  | error error =>
      rcases ended with kept | cut
      · exact ⟨positive, schema, tail, { front with holds := kept }, fun _ impossible => by
          cases impossible⟩
      · exact ⟨positive, schema, [], trimmed cut, fun _ impossible => by cases impossible⟩

/-- A crash inside a resumption. -/
theorem Sound.interrupted (bounded : maxBytes < u64Max)
    (sound : Sound crates file maxBytes records none world)
    (crashed : (Writer.resume crates file maxBytes).run.Crashes (fsMachine host weather)
      world left) :
    Sound crates file maxBytes records none left := by
  obtain ⟨positive, schema, tail, front, _⟩ := sound
  have either : left.Holds file (linesFrom crates schema 0 records ++ tail) ∨
      left.Holds file (linesFrom crates schema 0 records) := by
    refine (resume_meets bounded positive front).crashes ?_ crashed
    intro result finish ended
    cases result with
    | ok resumed => exact .inr ended.2
    | error error => exact ended
  have none : ∀ tail, Front crates file maxBytes schema records tail left →
      Sound crates file maxBytes records none left :=
    fun tail came => ⟨positive, schema, tail, came, fun _ impossible => by cases impossible⟩
  rcases either with kept | cut
  · exact none tail { front with holds := kept }
  · refine none [] ⟨?_, List.not_mem_nil, front.ordered, ?_⟩
    · rw [List.append_nil]
      exact cut
    · have short := front.short
      rw [List.length_append] at short
      rw [List.append_nil]
      omega

theorem life_sound {history : List Attempt} {current : Option Writer} (bounded : maxBytes < u64Max)
    (life : Life crates host weather file maxBytes history current world) :
    Sound crates file maxBytes (survivors history) current world := by
  induction life with
  | create schema start world fresh regular created =>
      obtain ⟨rfl, empty, positive, rfl⟩ := new_meets.returns created fresh rfl
      refine ⟨positive, schema, [], ⟨⟨regular, empty⟩, List.not_mem_nil, trivial, Nat.zero_le _⟩,
        fun present same => ?_⟩
      cases same
      exact .inl ⟨rfl, rfl⟩
  | append record result _ returned ih => exact ih.append bounded returned
  | cut record _ crashed ih => exact (ih.cut bounded crashed).reboot
  | drop _ ih => exact ih.forget
  | crash _ ih => exact ih.reboot
  | resume result _ returned ih => exact ih.resume bounded returned
  | interrupted _ crashed ih => exact (ih.interrupted bounded crashed).reboot

/-! ### What a reader and the next append find -/

/-- A journal reads as the records whose lines are in it, in order; what is
torn is never before a line. A refused append changes nothing, and a writer
that failed writes nothing again. -/
theorem life_reads {history : List Attempt} {current : Option Writer} {world : World}
    (bounded : maxBytes < u64Max)
    (life : Life crates host weather file maxBytes history current world) :
    (read crates file maxBytes).run.run (fsKernel host) world =
        (.ok (entriesFrom 0 (survivors history)), world) ∧
      (∃ schema tail, newline ∉ tail ∧
        (world.inodes file).bytes = linesFrom crates schema 0 (survivors history) ++ tail ∧
        ∀ present, current = some present → present.poisoned = false → tail = []) ∧
      ∀ present, current = some present → ∀ record result after finish,
        ((Writer.append crates record).run.run present).Returns (fsMachine host weather) world
          (result, after) finish →
        (∀ seq, result = .ok seq → seq = (survivors history).length ∧
          present.poisoned = false ∧ Admits crates present record) ∧
        (∀ error, result = .error error →
          (after = present ∧ finish = world) ∨
            (after.poisoned = true ∧ present.poisoned = false ∧ Admits crates present record)) := by
  obtain ⟨positive, schema, tail, front, fitting⟩ := life_sound bounded life
  refine ⟨read_run bounded positive front, ⟨schema, tail, front.unfinished, front.holds.bytes,
    fun present same fine => ?_⟩, fun present same record result after finish returned => ?_⟩
  · rcases fitting present same with ⟨empty, _⟩ | ⟨poisoned, _⟩
    · exact empty
    · rw [fine] at poisoned
      cases poisoned
  · rcases fitting present same with ⟨rfl, rfl⟩ | ⟨poisoned, named⟩
    · have holds := front.holds
      rw [List.append_nil] at holds
      have ended := (append_meets crates bounded holds).returns returned
      cases result with
      | ok seq =>
          obtain ⟨numbered, admits, _⟩ := ended
          refine ⟨fun other equal => ?_, fun error impossible => by cases impossible⟩
          cases equal
          exact ⟨numbered, rfl, admits⟩
      | error error =>
          refine ⟨fun seq impossible => (by cases impossible), fun other _ => ?_⟩
          rcases ended with ⟨_, kept, stayed⟩ | ⟨admits, poisoned, _⟩
          · exact .inl ⟨kept, stayed⟩
          · exact .inr ⟨poisoned, rfl, admits⟩
    · rw [append_poisoned crates poisoned] at returned
      obtain ⟨same, rfl⟩ := returned
      cases same
      exact ⟨fun seq impossible => (by cases impossible), fun other _ => .inl ⟨rfl, rfl⟩⟩

/-- An append may be cut anywhere in its line. -/
theorem append_torn {writer : Writer} {record : Record} (sound : writer.poisoned = false)
    (ordered : validateOrder writer.nextSeq record (saturatingAdd writer.nextSeq 1) = .ok ())
    (room : saturatingAdd writer.bytes
      (Writer.line crates writer.schema writer.nextSeq record).length ≤ writer.maxBytes)
    (world : World) (count : Nat) :
    ((Writer.append crates record).run.run writer).Crashes (fsMachine host weather) world
      (world.append writer.file
        ((Writer.line crates writer.schema writer.nextSeq record).take count)) := by
  unfold Writer.append
  change Task.Crashes _ ((if writer.poisoned = true then _ else _ :
    ExceptT JournalError (StateT Writer (Task FsOp)) Nat).run.run writer) _ _
  rw [if_neg (by rw [sound]; exact Bool.false_ne_true), ordered]
  change Task.Crashes _ ((if saturatingAdd writer.bytes (Writer.line crates writer.schema
    writer.nextSeq record).length > writer.maxBytes then _ else _ :
    ExceptT JournalError (StateT Writer (Task FsOp)) Nat).run.run writer) _ _
  rw [if_neg (Nat.not_lt_of_le room)]
  exact .inside _ world _ (.inl ⟨⟨rfl, rfl⟩, rfl⟩) ⟨count, rfl⟩

/-- An append in a world where nothing fails. -/
theorem Life.append_run {history : List Attempt} {writer : Writer} {world : World}
    (refuses : weather.refuses) (record : Record)
    (life : Life crates host weather file maxBytes history (some writer) world)
    {ran : (Except JournalError Nat × Writer) × World}
    (same : ((Writer.append crates record).run.run writer).run (fsKernel host) world = ran) :
    Life crates host weather file maxBytes
      (history ++ [⟨record, fateOf crates writer record world ran.2 ran.1.1⟩]) (some ran.1.2)
      ran.2 := by
  subst same
  exact .append record _ life (returns_run refuses _ _)

section Run

/-- One open file, named by nothing yet. -/
def blank : World :=
  { table := ⟨[], List.nodupKeys_nil⟩
    inodes := fun _ => ⟨.file, 0, [], 0o644⟩
    root := 0
    spare := []
    entropy := []
    locks := [] }

def opening : Record := .header "0000" "0000" "move" 1 1

def opened : Writer :=
  writer plainCrates 1 4096 .v3 []

@[irreducible] def appending : Task FsOp (Except JournalError Nat × Writer) :=
  (Writer.append plainCrates opening).run.run opened

def resuming : Task FsOp (Except JournalError Writer) :=
  (Writer.resume plainCrates 1 4096).run

/-- What the append of the header comes back with. -/
def begun : (Except JournalError Nat × Writer) × World :=
  appending.run (fsKernel .plain) blank

def following : Record := .pathStaged 0 none none

/-- Eight bytes of the next line came to the file. -/
def halfway : World :=
  begun.2.append begun.1.2.file
    ((Writer.line plainCrates begun.1.2.schema begun.1.2.nextSeq following).take 8)

theorem begun_ends :
    begun.1.1.isOk = true ∧ begun.1.2.poisoned = false ∧
      (validateOrder begun.1.2.nextSeq following (saturatingAdd begun.1.2.nextSeq 1)).isOk = true ∧
      saturatingAdd begun.1.2.bytes (Writer.line plainCrates begun.1.2.schema begun.1.2.nextSeq
        following).length ≤ begun.1.2.maxBytes ∧
      leftover (Writer.line plainCrates begun.1.2.schema begun.1.2.nextSeq following)
        (begun.2.inodes begun.1.2.file).bytes (halfway.inodes begun.1.2.file).bytes = .lost := by
  decide +kernel

/-- A header was acknowledged; the append of the next record was cut in its line. -/
theorem life_reads_torn :
    4096 < u64Max ∧ ∃ current world,
      Life plainCrates .plain .stormy 1 4096 [⟨opening, .acknowledged⟩, ⟨following, .lost⟩] current
        world ∧
      (read plainCrates 1 4096).run.run (fsKernel .plain) world = (.ok [⟨0, opening⟩], world) := by
  have bounded : 4096 < u64Max := by decide
  have refuses : Weather.stormy.refuses := trivial
  have created : (Writer.new 1 4096).run.Returns (fsMachine .plain .stormy) blank
      (.ok opened) blank :=
    returns_run refuses (Writer.new 1 4096).run blank
  have fresh : Life plainCrates .plain .stormy 1 4096 [] (some opened) blank :=
    .create .v3 _ _ _ rfl created
  have ran : appending.run (fsKernel .plain) blank = begun := rfl
  unfold appending at ran
  obtain ⟨came, sound, ordered, room, lost⟩ := begun_ends
  have appended := fresh.append_run refuses opening ran
  cases result : begun.1.1 with
  | error error =>
      rw [result] at came
      cases came
  | ok seq =>
      rw [result] at appended
      cases valid : validateOrder begun.1.2.nextSeq following
          (saturatingAdd begun.1.2.nextSeq 1) with
      | error error =>
          rw [valid] at ordered
          cases ordered
      | ok value =>
          have cut := Life.cut following appended (append_torn sound valid room begun.2 8)
          have resumed := Life.resume _ cut (returns_run refuses resuming halfway.reboot)
          change Life plainCrates .plain .stormy 1 4096 [⟨opening, .acknowledged⟩,
            ⟨following, leftover _ _ (halfway.inodes begun.1.2.file).bytes⟩] _ _ at resumed
          rw [lost] at resumed
          exact ⟨bounded, _, _, resumed, (life_reads bounded resumed).1⟩

end Run

end Journal

end Worktree
