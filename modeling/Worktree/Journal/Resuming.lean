import Worktree.Journal.Logging
/-
Opening a journal that exists, and removing it.

Whatever a crash left behind the last line is cut off before anything is
appended, so a resumed writer is in step with the records it read.
-/

namespace Worktree

open CrashLogic

namespace Logbook

variable {T : Type} {crates : Crates T} {book : Logbook crates} {host : Host} {weather : Weather}
  {mayRefuse : Prop} {records : List Record} {writer : Writer} {world finish : World}
  {pre pre' : List Record → Prop} {α ε : Type}

/-! ### A record with the errors of a transaction -/

theorem appendOr_logs (record : Record) (wrap : JournalError → WorktreeError)
    {post : Except WorktreeError Unit → List Record → Prop}
    (step : ∀ records, book.safe records → pre records →
      (record.isHeader = true ↔ records = []) ∧ book.safe (records ++ [record]) ∧
      post (.ok ()) (records ++ [record]) ∧
      (linesCost crates book.schema 0 (records ++ [record]) ≤ book.maxBytes ∨
        mayRefuse ∧ (weather.refuses → ∀ error, post (.error error) records))) :
    book.Logs (fsMachine host weather) (book.Cautious host weather mayRefuse)
      (appendOr crates record wrap).run pre post := by
  have appended : book.Logs (fsMachine host weather) (book.Cautious host weather mayRefuse)
      (do let _ ← Writer.append crates record :
        ExceptT JournalError (StateT Writer (Task FsOp)) Unit).run pre
      fun result records => ∀ changed : Except WorktreeError Unit,
        (∀ value, result = .ok value → changed = .ok value) →
        (∀ error, result = .error error → ∃ other, changed = .error other) →
        post changed records := by
    have line : book.Logs (fsMachine host weather) (book.Cautious host weather mayRefuse)
        (Writer.append crates record).run pre fun result records => match result with
          | .ok _ => post (.ok ()) records
          | .error _ => ∀ error, post (.error error) records := by
      refine append_logs record fun records safe holds => ?_
      obtain ⟨order, safeAfter, appended, room⟩ := step records safe holds
      exact ⟨order, safeAfter, appended, room.imp_right fun ⟨may, refused⟩ =>
        ⟨may, fun refuses _ => refused refuses⟩⟩
    refine Logs.except_bind line (fun value => ?_) ?_
    · refine (logs_pure _).post fun result records _ ended changed good _ => ?_
      rw [good () ended.1]
      exact ended.2
    · intro error records _ refused changed _ bad
      obtain ⟨other, rfl⟩ := bad error rfl
      exact refused other
  refine (logs_adapt appended).post fun result records _ ended => ?_
  obtain ⟨value, rfl, holds⟩ := ended
  apply holds
  · intro found same
    rw [same]
    rfl
  · intro error same
    rw [same]
    exact ⟨wrap error, rfl⟩

/-! ### Removing the journal -/

/-- A removal leaves an entry alone or takes it away. -/
theorem look_removeFile {slot : Slot} {dir : Ino} {name : String} {answer : Except IoError Unit}
    {seen : Seen} (shows : world.look slot = some seen) (single : seen.links = 1)
    (stepped : (fsMachine host weather).step (.io (.removeFile dir name)) world answer finish) :
    finish.look slot = world.look slot ∨ finish.look slot = none := by
  have effect : (FsCall.removeFile dir name).Effect host world finish :=
    FsCall.step_effect stepped
  by_cases same : host.slot dir name = slot
  · rcases effect.removed rfl with rfl | rfl
    · exact .inl rfl
    · right
      rw [same]
      exact World.look_unlink_self
  · left
    rw [shows]
    have spares : (FsCall.removeFile dir name).Spares host slot seen.ino := same
    exact World.look_effect shows single spares effect

theorem removeNamedJournal_meets (control : ControlDir) (name : String)
    {guard : {ρ : Type} → FsOp ρ → World → Prop} {seen : Seen}
    (shows : world.look book.slot = some seen) (single : seen.links = 1)
    (admits : ∀ here, here.look book.slot = world.look book.slot ∨ here.look book.slot = none →
      (fsMachine host weather).Admits guard here)
    (grants : guard (.io (.removeFile control.dir name)) world) :
    (control.removeNamedJournal name).run.Meets (fsMachine host weather) guard
      (fun _ finish => finish.look book.slot = world.look book.slot ∨
        finish.look book.slot = none) world := by
  unfold ControlDir.removeNamedJournal
  rw [Task.meets_except_bind, attempt, Task.meets_except_lift]
  refine ⟨grants, fun answer middle stepped => ?_⟩
  have came := look_removeFile shows single stepped
  cases answer with
  | ok value =>
      refine (Reads.meets ControlDir.sync_reads (admits middle came)).mono ?_
      rintro result finish ⟨rfl, _⟩
      exact came
  | error error =>
      change Task.Meets _ _ (ExceptT.run
        (if error.kind = .notFound then pure () else throw error : Io Unit)) _ middle
      split
      · exact came
      · exact came

/-- After the removal there is no journal, or it is as it was. -/
theorem removeOperationJournal_meets (control : ControlDir)
    {guard : {ρ : Type} → FsOp ρ → World → Prop} {seen : Seen}
    (shows : world.look book.slot = some seen) (single : seen.links = 1)
    (admits : ∀ here, here.look book.slot = world.look book.slot ∨ here.look book.slot = none →
      (fsMachine host weather).Admits guard here)
    (grants : ∀ name, guard (.io (.removeFile control.dir name)) world) :
    control.removeOperationJournal.run.Meets (fsMachine host weather) guard
      (fun _ finish => finish.look book.slot = world.look book.slot ∨
        finish.look book.slot = none) world := by
  unfold ControlDir.removeOperationJournal
  rw [Task.meets_except_bind]
  refine (Reads.meets (ControlDir.openNamedJournal_reads _) (admits world (.inl rfl))).mono ?_
  rintro current here ⟨rfl, _⟩
  cases current with
  | error error => exact .inl rfl
  | ok current =>
      dsimp only
      rw [Task.meets_except_bind]
      refine (Reads.meets (ControlDir.openNamedJournal_reads _) (admits here (.inl rfl))).mono ?_
      rintro legacy here ⟨rfl, _⟩
      cases legacy with
      | error error => exact .inl rfl
      | ok legacy =>
          dsimp only
          cases current with
          | none =>
              cases legacy with
              | none => exact .inl rfl
              | some other =>
                  exact removeNamedJournal_meets control _ shows single admits (grants _)
          | some file =>
              cases legacy with
              | none => exact removeNamedJournal_meets control _ shows single admits (grants _)
              | some other => exact .inl rfl

theorem recorded_of_look (session : book.Session pre writer world)
    (came : finish.look book.slot = world.look book.slot ∨ finish.look book.slot = none) :
    book.Recorded finish := by
  rcases came with same | gone
  · exact (session.congr same).recorded
  · exact .inl gone

theorem removeOperationJournal_closes (control : ControlDir) (wrap : IoError → WorktreeError) :
    book.Closes (fsMachine host weather) (book.Cautious host weather mayRefuse)
      (beside (orElse control.removeOperationJournal wrap)).run pre := by
  intro writer world session
  obtain ⟨seen, shows, reserved, _⟩ := session.look
  unfold beside orElse
  rw [Task.meets_session_lift, Task.meets_except_adapt]
  refine (removeOperationJournal_meets control shows reserved.single
    (fun here came => admits_cautious (recorded_of_look session came)) fun name => ?_).mono
    fun result finish came => recorded_of_look session came
  exact ⟨session.recorded, fun _ => False.elim⟩

/-! ### Reading it again -/

section

variable {slot : Slot} {seen : Seen} {file : Ino} {maxBytes : Nat}
  {allowed : {ρ : Type} → FsOp ρ → Prop}

theorem yields_journalRead (ino : seen.ino = file)
    (short : seen.inode.bytes.length ≤ maxBytes) (bounded : maxBytes < u64Max) :
    Task.Yields (fsMachine host weather) allowed (fun here => here.look slot = some seen)
      (journalIo (.read file (saturatingAdd maxBytes 1))) fun bytes =>
        bytes = seen.inode.bytes := by
  refine Task.yields_adapt (yields_answer (.inl (quiet_read _ _)) fun here bytes shows answer => ?_)
  subst ino
  simp only [FsCall.exec] at answer
  split at answer
  · cases answer
  · cases answer
    rw [inode_of_look shows, List.take_of_length_le]
    rw [saturatingAdd]
    omega

theorem readWithSchema_yields (ino : seen.ino = file)
    (short : seen.inode.bytes.length ≤ maxBytes) (bounded : maxBytes < u64Max) :
    Task.Yields (fsMachine host weather) allowed (fun here => here.look slot = some seen)
      (readWithSchema crates file maxBytes) fun found =>
        parseBytes crates seen.inode.bytes = .ok found := by
  unfold readWithSchema
  refine Task.Yields.bind (Task.yields_result _ fun _ => id) fun _ _ => ?_
  refine Task.Yields.bind (Task.yields_adapt (yields_quiet (quiet_metadata _)))
    fun metadata _ => ?_
  refine yields_check fun _ => ?_
  refine Task.Yields.bind (Task.yields_adapt (yields_quiet (quiet_cloneHandle _)))
    fun _ _ => ?_
  refine Task.Yields.bind (yields_journalRead ino short bounded) fun bytes same => ?_
  subst same
  exact yields_check fun _ => Task.yields_result _ fun _ => id

end

theorem Logged.seen (logged : book.Logged records world) :
    ∃ seen tail, world.look book.slot = some seen ∧ Reserved book.slot seen ∧
      seen.ino = book.file ∧ newline ∉ tail ∧
      seen.inode.bytes = linesFrom crates book.schema 0 records ++ tail ∧
      seen.inode.bytes.length ≤ book.maxBytes := by
  obtain ⟨tail, unfinished, fits, seen, shows, reserved, ino, _, bytes⟩ := logged.stores
  refine ⟨seen, tail, shows, reserved, ino, unfinished, bytes, ?_⟩
  rw [bytes]
  exact fits

/-- The journal reads as its records. -/
theorem read_yields {good : List Entry → Prop} {seen : Seen} {tail : Bytes}
    {allowed : {ρ : Type} → FsOp ρ → Prop} (ino : seen.ino = book.file)
    (unfinished : newline ∉ tail)
    (bytes : seen.inode.bytes = linesFrom crates book.schema 0 records ++ tail)
    (short : seen.inode.bytes.length ≤ book.maxBytes) (ordered : Ordered 0 records)
    (holds : good (entriesFrom 0 records)) :
    Task.Yields (fsMachine host weather) allowed (fun here => here.look book.slot = some seen)
      (read crates book.file book.maxBytes) good := by
  unfold read
  refine Task.Yields.bind (readWithSchema_yields ino short book.bounded) fun found parsed => ?_
  rw [bytes, parseBytes_lines crates book.schema records tail ordered unfinished] at parsed
  cases parsed
  exact Task.yields_pure _ holds

/-- The torn line goes. -/
theorem Stores.resize {bytes tail : Bytes} (stores : world.Stores book.slot book.file
    (bytes ++ tail)) : (world.resize book.file bytes.length).Stores book.slot book.file bytes := by
  obtain ⟨seen, shows, reserved, ino, kind, holds⟩ := stores
  unfold World.resize
  rw [← ino]
  refine ⟨_, World.look_setInode_self shows, ⟨reserved.single, reserved.name, reserved.receipt⟩,
    rfl, ?_, ?_⟩
  · rw [inode_of_look shows]
    exact kind
  · rw [inode_of_look shows, holds, List.take_left', List.length_append]
    · have none_missing : bytes.length - (bytes.length + tail.length) = 0 := by omega
      rw [none_missing]
      simp
    · rfl

/-- A resumed writer is in step with the records it found. -/
theorem resume_meets (current : book.schema = .current) (safe : book.safe records)
    (logged : book.Logged records world) :
    (Writer.resume crates book.file book.maxBytes).run.Meets (fsMachine host weather)
      (book.Cautious host weather mayRefuse)
      (fun result finish => match result with
        | .ok writer => book.InStep records writer finish
        | .error _ => book.Logged records finish) world := by
  obtain ⟨seen, tail, shows, reserved, ino, unfinished, bytes, short⟩ := logged.seen
  have ordered := logged.ordered
  have kept : ∀ here : World, here.look book.slot = some seen → book.Logged records here :=
    fun here same => logged.congr (same.trans shows.symm)
  have recorded : ∀ here : World, here.look book.slot = some seen → book.Recorded here :=
    fun here same => .inr ⟨records, safe, kept here same⟩
  have maintains := spares_maintains host weather book.slot seen reserved.single
  unfold Writer.resume
  rw [Task.meets_except_bind]
  refine (Task.Upholds.meets (readWithSchema_yields ino short book.bounded) maintains shows
    (fun here same => admits_cautious (recorded here same))
    (grants_cautious reserved recorded)).mono ?_
  rintro result here ⟨still, parsed⟩
  cases result with
  | error error => exact kept here still
  | ok found =>
      have reads := parsed found rfl
      rw [bytes, parseBytes_lines crates book.schema records tail ordered unfinished] at reads
      cases reads
      dsimp only
      rw [Task.meets_except_bind]
      refine (Task.Upholds.meets (yields_journalRead ino short book.bounded) maintains still
        (fun here same => admits_cautious (recorded here same))
        (grants_cautious reserved recorded)).mono ?_
      rintro result here ⟨still, same⟩
      cases result with
      | error error => exact kept here still
      | ok again =>
          have whole := same again rfl
          subst whole
          dsimp only
          rw [if_neg (by omega), bytes, lastNewline_lines crates book.schema records tail unfinished,
            Task.meets_except_bind, meets_journalIo]
          have stored := (kept here still)
          have resized : (here.resize book.file
              (linesFrom crates book.schema 0 records).length).Stores book.slot book.file
                (linesFrom crates book.schema 0 records) := by
            obtain ⟨_, _, fits, _⟩ := logged.stores
            have files : here.Stores book.slot book.file
                (linesFrom crates book.schema 0 records ++ tail) := by
              obtain ⟨_, _, _, there, found, facts⟩ := logged.stores
              rw [shows] at found
              cases found
              exact ⟨seen, still, facts.1, ino, facts.2.2.1, bytes⟩
            exact Stores.resize files
          have fits : linesCost crates book.schema 0 records ≤ book.maxBytes := by
            rw [bytes, List.length_append, linesFrom_length] at short
            omega
          have inStep : book.InStep records (book.writer records) (here.resize book.file
              (linesFrom crates book.schema 0 records).length) :=
            ⟨resized, rfl, ordered, fits⟩
          refine ⟨⟨recorded here still, fun _ => False.elim⟩, fun answer finish stepped => ?_⟩
          rcases stepped with executed | ⟨_, error, rfl, came, _⟩
          · cases executed
            have known : book.writer records =
                { file := book.file
                  schema := readSchema book.schema records
                  nextSeq := (entriesFrom 0 records).length
                  bytes := (linesFrom crates book.schema 0 records).length
                  maxBytes := book.maxBytes
                  poisoned := false } := by
              have same : readSchema book.schema records = book.schema := by
                unfold readSchema
                split
                · exact current.symm
                · rfl
              rw [same, entriesFrom_length, linesFrom_length]
              rfl
            exact { inStep with knows := known.symm }
          · rcases came with rfl | ⟨rfl, _⟩ | torn
            · exact stored
            · exact inStep.logged
            · exact torn.elim

end Logbook

end Worktree
