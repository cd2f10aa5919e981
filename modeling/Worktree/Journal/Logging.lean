import Worktree.Filesystem.StateFiles
import Worktree.Journal.Lines
/-
What a program with an open journal may append to it.

A session is in step with its journal, or its writer is poisoned and appends no
more. In either case the file is the records so far and perhaps a torn line,
and the records satisfy a condition that has to hold at each point of a run.
-/

namespace Worktree

open CrashLogic

/-- The entry is the only name of a regular file with these bytes. -/
def World.Stores (world : World) (slot : Slot) (file : Ino) (bytes : Bytes) : Prop :=
  ∃ seen, world.look slot = some seen ∧ Reserved slot seen ∧ seen.ino = file ∧
    seen.inode.kind = .file ∧ seen.inode.bytes = bytes

/-- A journal, and what its records have to satisfy all the time. -/
structure Logbook {T : Type} (crates : Crates T) where
  slot : Slot
  file : Ino
  schema : JournalSchema
  maxBytes : Nat
  bounded : maxBytes < u64Max
  safe : List Record → Prop

namespace Logbook

variable {T : Type} {crates : Crates T} (book : Logbook crates)

/-- The file is the records, and perhaps a torn line. -/
structure Logged (records : List Record) (world : World) : Prop where
  stores : ∃ tail, newline ∉ tail ∧
    (linesFrom crates book.schema 0 records ++ tail).length ≤ book.maxBytes ∧
    world.Stores book.slot book.file (linesFrom crates book.schema 0 records ++ tail)
  ordered : Ordered 0 records

/-- The writer that has appended these records, and lost none. -/
def writer (records : List Record) : Writer :=
  { file := book.file
    schema := book.schema
    nextSeq := records.length
    bytes := linesCost crates book.schema 0 records
    maxBytes := book.maxBytes
    poisoned := false }

/-- The writer knows what the file holds. -/
structure InStep (records : List Record) (writer : Writer) (world : World) : Prop where
  stores : world.Stores book.slot book.file (linesFrom crates book.schema 0 records)
  knows : writer = book.writer records
  ordered : Ordered 0 records
  fits : linesCost crates book.schema 0 records ≤ book.maxBytes

/-- There is no journal, or it holds safe records. -/
def Recorded (world : World) : Prop :=
  world.look book.slot = none ∨ ∃ records, book.safe records ∧ book.Logged records world

/-- The session is in step with records of this kind, or its writer is poisoned. -/
def Session (pre : List Record → Prop) (writer : Writer) (world : World) : Prop :=
  ∃ records, book.safe records ∧
    (book.InStep records writer world ∧ pre records ∨
      writer.poisoned = true ∧ book.Logged records world)

variable {book} {records : List Record} {writer : Writer} {world finish : World}
  {pre pre' : List Record → Prop}

theorem InStep.logged (inStep : book.InStep records writer world) : book.Logged records world := by
  refine ⟨⟨[], List.not_mem_nil, ?_, ?_⟩, inStep.ordered⟩
  · rw [List.append_nil, linesFrom_length]
    exact inStep.fits
  · rw [List.append_nil]
    exact inStep.stores

theorem Session.recorded (session : book.Session pre writer world) : book.Recorded world := by
  obtain ⟨records, safe, inStep | poisoned⟩ := session
  · exact .inr ⟨records, safe, inStep.1.logged⟩
  · exact .inr ⟨records, safe, poisoned.2⟩

theorem Session.mono (session : book.Session pre writer world)
    (weaker : ∀ records, book.safe records → pre records → pre' records) :
    book.Session pre' writer world := by
  obtain ⟨records, safe, inStep | poisoned⟩ := session
  · exact ⟨records, safe, .inl ⟨inStep.1, weaker records safe inStep.2⟩⟩
  · exact ⟨records, safe, .inr poisoned⟩

theorem Session.look (session : book.Session pre writer world) :
    ∃ seen, world.look book.slot = some seen ∧ Reserved book.slot seen ∧ seen.ino = book.file := by
  obtain ⟨records, safe, inStep | poisoned⟩ := session
  · obtain ⟨seen, shows, reserved, ino, _⟩ := inStep.1.stores
    exact ⟨seen, shows, reserved, ino⟩
  · obtain ⟨tail, _, _, seen, shows, reserved, ino, _⟩ := poisoned.2.stores
    exact ⟨seen, shows, reserved, ino⟩

theorem Stores.congr {slot : Slot} {file : Ino} {bytes : Bytes}
    (stores : world.Stores slot file bytes) (same : finish.look slot = world.look slot) :
    finish.Stores slot file bytes := by
  obtain ⟨seen, shows, facts⟩ := stores
  exact ⟨seen, same.trans shows, facts⟩

theorem Logged.congr (logged : book.Logged records world)
    (same : finish.look book.slot = world.look book.slot) : book.Logged records finish := by
  obtain ⟨tail, unfinished, fits, stores⟩ := logged.stores
  exact ⟨⟨tail, unfinished, fits, Stores.congr stores same⟩, logged.ordered⟩

theorem Recorded.congr (recorded : book.Recorded world)
    (same : finish.look book.slot = world.look book.slot) : book.Recorded finish := by
  rcases recorded with gone | ⟨records, safe, logged⟩
  · exact .inl (same.trans gone)
  · exact .inr ⟨records, safe, logged.congr same⟩

theorem InStep.congr (inStep : book.InStep records writer world)
    (same : finish.look book.slot = world.look book.slot) : book.InStep records writer finish :=
  { inStep with stores := Stores.congr inStep.stores same }

theorem Session.congr (session : book.Session pre writer world)
    (same : finish.look book.slot = world.look book.slot) : book.Session pre writer finish := by
  obtain ⟨records, safe, inStep | poisoned⟩ := session
  · exact ⟨records, safe, .inl ⟨inStep.1.congr same, inStep.2⟩⟩
  · exact ⟨records, safe, .inr ⟨poisoned.1, poisoned.2.congr same⟩⟩

/-! ### Programs -/

section

variable {Op : Type → Type 1} {machine : Machine Op World}
  {guard : {ρ : Type} → Op ρ → World → Prop} {α β ε ε' : Type}

/-- From a session of one kind, the program comes to a session of another. -/
def Logs (book : Logbook crates) (machine : Machine Op World)
    (guard : {ρ : Type} → Op ρ → World → Prop) (program : StateT Writer (Task Op) α)
    (pre : List Record → Prop) (post : α → List Record → Prop) : Prop :=
  ∀ writer world, book.Session pre writer world →
    (program.run writer).Meets machine guard
      (fun result finish => book.Session (post result.1) result.2 finish) world

/-- As long as the program runs and when it ends, the journal is safe or gone. -/
def Closes (book : Logbook crates) (machine : Machine Op World)
    (guard : {ρ : Type} → Op ρ → World → Prop) (program : StateT Writer (Task Op) α)
    (pre : List Record → Prop) : Prop :=
  ∀ writer world, book.Session pre writer world →
    (program.run writer).Meets machine guard (fun _ finish => book.Recorded finish) world

theorem logs_pure (value : α) : book.Logs machine guard (pure value) pre
    fun result records => result = value ∧ pre records :=
  fun _ _ session => session.mono fun _ _ holds => ⟨rfl, holds⟩

theorem Logs.mono {program : StateT Writer (Task Op) α} {post post' : α → List Record → Prop}
    (logs : book.Logs machine guard program pre post)
    (stronger : ∀ records, book.safe records → pre' records → pre records)
    (weaker : ∀ value records, book.safe records → post value records → post' value records) :
    book.Logs machine guard program pre' post' := by
  intro writer world session
  refine (logs writer world (session.mono stronger)).mono fun result finish ended => ?_
  exact ended.mono (weaker result.1)

theorem Logs.post {program : StateT Writer (Task Op) α} {post post' : α → List Record → Prop}
    (logs : book.Logs machine guard program pre post)
    (weaker : ∀ value records, book.safe records → post value records → post' value records) :
    book.Logs machine guard program pre post' :=
  logs.mono (fun _ _ => id) weaker

theorem Logs.bind {program : StateT Writer (Task Op) α} {after : α → StateT Writer (Task Op) β}
    {middle : α → List Record → Prop} {post : β → List Record → Prop}
    (first : book.Logs machine guard program pre middle)
    (second : ∀ value, book.Logs machine guard (after value) (middle value) post) :
    book.Logs machine guard (program >>= after) pre post := by
  intro writer world session
  rw [StateT.run_bind, Task.meets_bind]
  exact (first writer world session).mono fun result finish ended =>
    second result.1 result.2 finish ended

theorem Logs.except_bind {program : ExceptT ε (StateT Writer (Task Op)) α}
    {after : α → ExceptT ε (StateT Writer (Task Op)) β}
    {middle : Except ε α → List Record → Prop} {post : Except ε β → List Record → Prop}
    (first : book.Logs machine guard program.run pre middle)
    (second : ∀ value, book.Logs machine guard (after value).run (middle (.ok value)) post)
    (errors : ∀ error records, book.safe records → middle (.error error) records →
      post (.error error) records) :
    book.Logs machine guard (program >>= after).run pre post := by
  rw [ExceptT.run_bind]
  refine Logs.bind first fun result => ?_
  cases result with
  | ok value => exact second value
  | error error =>
      intro writer world session
      exact session.mono (errors error)

theorem logs_throw (error : ε) :
    book.Logs machine guard (throw error : ExceptT ε (StateT Writer (Task Op)) α).run pre
      fun result records => result = .error error ∧ pre records :=
  fun _ _ session => session.mono fun _ _ holds => ⟨rfl, holds⟩

theorem logs_attempt {program : StateT Writer (Task Op) α}
    {post : α → List Record → Prop} (logs : book.Logs machine guard program pre post) :
    book.Logs machine guard (ExceptT.lift program : ExceptT ε (StateT Writer (Task Op)) α).run pre
      fun result records => ∃ value, result = .ok value ∧ post value records := by
  rw [ExceptT.run_lift, ← bind_pure_comp]
  refine Logs.bind logs fun value => ?_
  exact (logs_pure _).post fun result records _ ended => ⟨value, ended.1, ended.2⟩

theorem logs_adapt {change : ε → ε'} {program : ExceptT ε (StateT Writer (Task Op)) α}
    {post : Except ε α → List Record → Prop}
    (logs : book.Logs machine guard program.run pre post) :
    book.Logs machine guard (ExceptT.adapt change program).run pre
      fun result records => ∃ value, result = value.mapError change ∧ post value records := by
  rw [ExceptT.run_adapt, ← bind_pure_comp]
  refine Logs.bind logs fun value => ?_
  exact (logs_pure _).post fun result records _ ended => ⟨value, ended.1, ended.2⟩

private theorem logs_forM_from {items : List β}
    {body : β → ExceptT ε (StateT Writer (Task Op)) PUnit} (inv : Nat → List Record → Prop)
    (failed : List Record → Prop) (past rest : List β) (split : items = past ++ rest)
    (round : ∀ past item rest, items = past ++ item :: rest →
      book.Logs machine guard (body item).run (inv past.length) fun result records =>
        match result with
        | .ok _ => inv (past.length + 1) records
        | .error _ => failed records) :
    book.Logs machine guard (rest.forM body).run (inv past.length) fun result records =>
      match result with
      | .ok _ => inv items.length records
      | .error _ => failed records := by
  induction rest generalizing past with
  | nil =>
      refine (logs_pure _).post fun result records _ ended => ?_
      rw [ended.1, split, List.append_nil]
      exact ended.2
  | cons item rest ih =>
      have next := ih (past ++ [item]) (by rw [split, List.append_assoc]; rfl)
      rw [List.length_append, List.length_singleton] at next
      change book.Logs machine guard (body item >>= fun _ => rest.forM body).run _ _
      exact Logs.except_bind (round past item rest split) (fun _ => next) fun _ _ _ ended => ended

/-- A loop of a session keeps an invariant of the number of rounds. -/
theorem logs_forM {items : List β} {body : β → ExceptT ε (StateT Writer (Task Op)) PUnit}
    (inv : Nat → List Record → Prop) (failed : List Record → Prop)
    (round : ∀ past item rest, items = past ++ item :: rest →
      book.Logs machine guard (body item).run (inv past.length) fun result records =>
        match result with
        | .ok _ => inv (past.length + 1) records
        | .error _ => failed records) :
    book.Logs machine guard (items.forM body).run (inv 0) fun result records =>
      match result with
      | .ok _ => inv items.length records
      | .error _ => failed records :=
  logs_forM_from inv failed [] items rfl round

theorem Closes.mono {program : StateT Writer (Task Op) α}
    (closes : book.Closes machine guard program pre)
    (stronger : ∀ records, book.safe records → pre' records → pre records) :
    book.Closes machine guard program pre' :=
  fun writer world session => closes writer world (session.mono stronger)

theorem Closes.after {program : StateT Writer (Task Op) α} {after : α → StateT Writer (Task Op) β}
    {middle : α → List Record → Prop} (first : book.Logs machine guard program pre middle)
    (second : ∀ value, book.Closes machine guard (after value) (middle value)) :
    book.Closes machine guard (program >>= after) pre := by
  intro writer world session
  rw [StateT.run_bind, Task.meets_bind]
  exact (first writer world session).mono fun result finish ended =>
    second result.1 result.2 finish ended

theorem Closes.except_after {program : ExceptT ε (StateT Writer (Task Op)) α}
    {after : α → ExceptT ε (StateT Writer (Task Op)) β}
    {middle : Except ε α → List Record → Prop}
    (first : book.Logs machine guard program.run pre middle)
    (second : ∀ value, book.Closes machine guard (after value).run (middle (.ok value))) :
    book.Closes machine guard (program >>= after).run pre := by
  rw [ExceptT.run_bind]
  refine Closes.after first fun result => ?_
  cases result with
  | ok value => exact second value
  | error error => exact fun _ _ session => session.recorded

/-- The program ends with a session of this kind, or with an error and a journal
that is safe or gone. -/
def Opens (book : Logbook crates) (machine : Machine Op World)
    (guard : {ρ : Type} → Op ρ → World → Prop) (program : ExceptT ε (StateT Writer (Task Op)) α)
    (pre : List Record → Prop) (post : α → List Record → Prop) : Prop :=
  ∀ writer world, book.Session pre writer world →
    (program.run.run writer).Meets machine guard
      (fun result finish => match result with
        | (.ok value, after) => book.Session (post value) after finish
        | (.error _, _) => book.Recorded finish) world

theorem Logs.opens {program : ExceptT ε (StateT Writer (Task Op)) α}
    {middle : Except ε α → List Record → Prop}
    (logs : book.Logs machine guard program.run pre middle) :
    book.Opens machine guard program pre fun value => middle (.ok value) := by
  intro writer world session
  refine (logs writer world session).mono fun result finish ended => ?_
  obtain ⟨value | error, after⟩ := result
  · exact ended.recorded
  · exact ended

theorem opens_pure {post : α → List Record → Prop} (value : α)
    (holds : ∀ records, book.safe records → pre records → post value records) :
    book.Opens machine guard (pure value : ExceptT ε (StateT Writer (Task Op)) α) pre post :=
  fun _ _ session => session.mono holds

theorem opens_throw {post : α → List Record → Prop} (error : ε) :
    book.Opens machine guard (throw error : ExceptT ε (StateT Writer (Task Op)) α) pre post :=
  fun _ _ session => session.recorded

theorem Opens.mono {program : ExceptT ε (StateT Writer (Task Op)) α}
    {post post' : α → List Record → Prop} (opens : book.Opens machine guard program pre post)
    (stronger : ∀ records, book.safe records → pre' records → pre records)
    (weaker : ∀ value records, book.safe records → post value records → post' value records) :
    book.Opens machine guard program pre' post' := by
  intro writer world session
  refine (opens writer world (session.mono stronger)).mono fun result finish ended => ?_
  obtain ⟨value | error, after⟩ := result
  · exact ended
  · exact Session.mono ended (weaker _)

theorem Closes.opens {program : ExceptT ε (StateT Writer (Task Op)) β}
    {post : α → List Record → Prop} (closes : book.Closes machine guard program.run pre)
    (error : ε) :
    book.Opens machine guard (program >>= fun _ => throw error) pre post := by
  intro writer world session
  rw [Task.meets_session_bind]
  refine (closes writer world session).mono fun result finish recorded => ?_
  obtain ⟨value | error, after⟩ := result
  · exact recorded
  · exact recorded

theorem Opens.after {program : ExceptT ε (StateT Writer (Task Op)) α}
    {next : α → ExceptT ε (StateT Writer (Task Op)) β} {middle : Except ε α → List Record → Prop}
    {post : β → List Record → Prop} (first : book.Logs machine guard program.run pre middle)
    (second : ∀ value, book.Opens machine guard (next value) (middle (.ok value)) post) :
    book.Opens machine guard (program >>= next) pre post := by
  intro writer world session
  rw [Task.meets_session_bind]
  refine (first writer world session).mono fun result finish ended => ?_
  obtain ⟨value | error, after⟩ := result
  · exact ended.recorded
  · exact second _ after finish ended

theorem Opens.bind {program : ExceptT ε (StateT Writer (Task Op)) α}
    {next : α → ExceptT ε (StateT Writer (Task Op)) β} {middle : α → List Record → Prop}
    {post : β → List Record → Prop} (first : book.Opens machine guard program pre middle)
    (second : ∀ value, book.Opens machine guard (next value) (middle value) post) :
    book.Opens machine guard (program >>= next) pre post := by
  intro writer world session
  rw [Task.meets_session_bind]
  refine (first writer world session).mono fun result finish ended => ?_
  obtain ⟨value | error, after⟩ := result
  · exact ended
  · exact second _ after finish ended

theorem Opens.closes {program : ExceptT ε (StateT Writer (Task Op)) α}
    {next : α → ExceptT ε (StateT Writer (Task Op)) β} {middle : α → List Record → Prop}
    (first : book.Opens machine guard program pre middle)
    (second : ∀ value, book.Closes machine guard (next value).run (middle value)) :
    book.Closes machine guard (program >>= next).run pre := by
  intro writer world session
  rw [Task.meets_session_bind]
  refine (first writer world session).mono fun result finish ended => ?_
  obtain ⟨value | error, after⟩ := result
  · exact ended
  · exact second _ after finish ended

theorem opens_ite {condition : Prop} [Decidable condition]
    {first second : ExceptT ε (StateT Writer (Task Op)) α} {post : α → List Record → Prop}
    (yes : condition → book.Opens machine guard first pre post)
    (no : ¬ condition → book.Opens machine guard second pre post) :
    book.Opens machine guard (if condition then first else second) pre post := by
  split
  · next holds => exact yes holds
  · next fails => exact no fails

/-- A check that ends the program when it finds something. -/
theorem opens_check {condition : Prop} [Decidable condition] {error : ε}
    {next : PUnit → ExceptT ε (StateT Writer (Task Op)) α} {post : α → List Record → Prop}
    (passed : ¬ condition → book.Opens machine guard (next ⟨⟩) pre post) :
    book.Opens machine guard (if condition then throw error >>= next else next ⟨⟩) pre post := by
  refine opens_ite (fun _ => ?_) passed
  intro writer world session
  rw [Task.meets_session_bind]
  exact session.recorded

private theorem opens_forM_from {items : List β}
    {body : β → ExceptT ε (StateT Writer (Task Op)) PUnit} (inv : Nat → List Record → Prop)
    (past rest : List β) (split : items = past ++ rest)
    (round : ∀ past item rest, items = past ++ item :: rest →
      book.Opens machine guard (body item) (inv past.length) fun _ => inv (past.length + 1)) :
    book.Opens machine guard (rest.forM body) (inv past.length) fun _ => inv items.length := by
  induction rest generalizing past with
  | nil =>
      rw [split, List.append_nil]
      exact opens_pure _ fun _ _ holds => holds
  | cons item rest ih =>
      have next := ih (past ++ [item]) (by rw [split, List.append_assoc]; rfl)
      rw [List.length_append, List.length_singleton] at next
      exact Opens.bind (round past item rest split) fun _ => next

/-- A loop keeps an invariant of the number of rounds, as long as no round fails. -/
theorem opens_forM {items : List β} {body : β → ExceptT ε (StateT Writer (Task Op)) PUnit}
    (inv : Nat → List Record → Prop)
    (round : ∀ past item rest, items = past ++ item :: rest →
      book.Opens machine guard (body item) (inv past.length) fun _ => inv (past.length + 1)) :
    book.Opens machine guard (items.forM body) (inv 0) fun _ => inv items.length :=
  opens_forM_from inv [] items rfl round

/-- Once the journal is closed only values are passed on. -/
theorem Closes.then {program : StateT Writer (Task Op) α} {after : α → StateT Writer (Task Op) β}
    (closes : book.Closes machine guard program pre)
    (still : ∀ value, ∃ result, after value = pure result) :
    book.Closes machine guard (program >>= after) pre := by
  intro writer world session
  rw [StateT.run_bind, Task.meets_bind]
  refine (closes writer world session).mono fun result finish ended => ?_
  obtain ⟨value, same⟩ := still result.1
  rw [same]
  exact ended

theorem Closes.except_then {program : ExceptT ε (StateT Writer (Task Op)) α}
    {after : α → ExceptT ε (StateT Writer (Task Op)) β}
    (closes : book.Closes machine guard program.run pre)
    (still : ∀ value, ∃ result, (after value).run = pure result) :
    book.Closes machine guard (program >>= after).run pre := by
  rw [ExceptT.run_bind]
  refine closes.then fun result => ?_
  cases result with
  | ok value => exact still value
  | error error => exact ⟨_, rfl⟩

end

/-! ### Calls of a session -/

section

variable {host : Host} {weather : Weather} {mayRefuse : Prop} {α ε : Type}

/-- At each call and inside it the journal is safe; a record is refused for its
size only where that may happen. -/
def Cautious (book : Logbook crates) (host : Host) (weather : Weather) (mayRefuse : Prop) :
    {ρ : Type} → FsOp ρ → World → Prop
  | _, .io call, here => (fsMachine host weather).Survives book.Recorded (.io call) here
  | _, .unlock file, here => (fsMachine host weather).Survives book.Recorded (.unlock file) here
  | _, .refuseAppend, here => book.Recorded here ∧ mayRefuse

theorem admits_cautious (recorded : book.Recorded world) :
    (fsMachine host weather).Admits (book.Cautious host weather mayRefuse) world := by
  intro ρ op quiet
  have still : ∀ left, (fsMachine host weather).torn op world left → book.Recorded left :=
    fun left torn => absurd torn ((quiet world).1 left)
  cases op with
  | io call => exact ⟨recorded, still⟩
  | unlock file => exact ⟨recorded, still⟩
  | refuseAppend => exact absurd rfl ((quiet world).1 world)

theorem grants_cautious {seen : Seen} (reserved : Reserved book.slot seen)
    (recorded : ∀ here, here.look book.slot = some seen → book.Recorded here) {ρ : Type}
    (op : FsOp ρ) (here : World) (spares : Spares host book.slot seen.ino op)
    (shows : here.look book.slot = some seen) : book.Cautious host weather mayRefuse op here := by
  have kept := (spares_maintains host weather book.slot seen reserved.single).torn op here
  cases op with
  | io call =>
      exact ⟨recorded here shows, fun left torn => recorded left (kept left spares shows torn)⟩
  | unlock file =>
      exact ⟨recorded here shows, fun left torn => recorded left (kept left spares shows torn)⟩
  | refuseAppend => exact spares.elim

/-- The program never touches the journal. -/
def Skirts (book : Logbook crates) (host : Host) (weather : Weather)
    (program : ExceptT ε (Task FsOp) α) (good : α → Prop) : Prop :=
  ∀ seen, seen.ino = book.file → Reserved book.slot seen →
    Bypasses host weather book.slot seen program good

theorem skirts_reads {program : ExceptT ε (Task FsOp) α} {good : α → Prop}
    (reads : Reads host weather program good) : book.Skirts host weather program good :=
  fun _ _ _ => reads.yields

/-- A program without a journal of its own leaves a session as it is. -/
theorem lift_meets {program : Task FsOp α} {good : α → Prop}
    (skirts : ∀ seen, seen.ino = book.file → Reserved book.slot seen →
      program.Upholds (fsMachine host weather) (Spares host book.slot seen.ino)
        (fun world => world.look book.slot = some seen) good)
    (session : book.Session pre writer world) :
    ((StateT.lift program : StateT Writer (Task FsOp) α).run writer).Meets
      (fsMachine host weather) (book.Cautious host weather mayRefuse)
      (fun result finish => book.Session pre result.2 finish ∧ good result.1) world := by
  obtain ⟨seen, shows, reserved, ino⟩ := session.look
  have kept : ∀ here, here.look book.slot = some seen → book.Session pre writer here :=
    fun here same => session.congr (same.trans shows.symm)
  rw [StateT.run_lift, Task.meets_bind]
  refine (Task.Upholds.meets (skirts seen ino reserved)
    (spares_maintains host weather book.slot seen reserved.single) shows ?_ ?_).mono ?_
  · exact fun here same => admits_cautious (kept here same).recorded
  · exact fun op here =>
      grants_cautious reserved (fun here same => (kept here same).recorded) op here
  · exact fun value finish ended => ⟨kept finish ended.1, ended.2⟩

theorem lift_logs {program : Task FsOp α} (good : α → Prop)
    (skirts : ∀ seen, seen.ino = book.file → Reserved book.slot seen →
      program.Upholds (fsMachine host weather) (Spares host book.slot seen.ino)
        (fun world => world.look book.slot = some seen) good) :
    book.Logs (fsMachine host weather) (book.Cautious host weather mayRefuse)
      (StateT.lift program) pre fun value records => pre records ∧ good value := by
  intro writer world session
  refine (lift_meets skirts session).mono fun result finish ended => ?_
  exact ended.1.mono fun records _ holds => ⟨holds, ended.2⟩

theorem beside_logs {program : Action α} {good : α → Prop}
    (skirts : book.Skirts host weather program good) :
    book.Logs (fsMachine host weather) (book.Cautious host weather mayRefuse)
      (beside program).run pre
      fun result records => pre records ∧ ∀ value, result = .ok value → good value :=
  lift_logs _ skirts

theorem opens_beside {β : Type} {program : Action α} {next : α → Journaled β} {good : α → Prop}
    {post : β → List Record → Prop} (skirts : book.Skirts host weather program good)
    (second : ∀ value, good value →
      book.Opens (fsMachine host weather) (book.Cautious host weather mayRefuse) (next value)
        pre post) :
    book.Opens (fsMachine host weather) (book.Cautious host weather mayRefuse)
      (beside program >>= next) pre post := by
  intro writer world session
  rw [Task.meets_session_bind]
  refine (lift_meets skirts session).mono fun result finish ended => ?_
  obtain ⟨value | error, after⟩ := result
  · exact ended.1.recorded
  · exact second _ (ended.2 _ rfl) after finish ended.1

/-! ### Appending -/

/-- The file with more at its end. -/
theorem Stores.append {slot : Slot} {file : Ino} {bytes : Bytes}
    (stores : world.Stores slot file bytes) (more : Bytes) :
    (world.append file more).Stores slot file (bytes ++ more) := by
  obtain ⟨seen, shows, reserved, rfl, kind, holds⟩ := stores
  refine ⟨_, World.look_setInode_self shows, ⟨reserved.single, reserved.name, reserved.receipt⟩,
    rfl, ?_, ?_⟩
  · rw [inode_of_look shows]
    exact kind
  · rw [inode_of_look shows, holds]

/-- What writing a line may leave, torn or whole. -/
theorem Logged.written {record : Record} (inStep : book.InStep records writer world)
    (order : record.isHeader = true ↔ records = [])
    (fits : linesCost crates book.schema 0 (records ++ [record]) ≤ book.maxBytes) (count : Nat) :
    book.Logged records
        (world.append book.file ((Writer.line crates book.schema records.length record).take count)) ∨
      book.Logged (records ++ [record])
        (world.append book.file
          ((Writer.line crates book.schema records.length record).take count)) := by
  have appended := Stores.append inStep.stores
    ((Writer.line crates book.schema records.length record).take count)
  have room : (linesFrom crates book.schema 0 records ++
      Writer.line crates book.schema records.length record).length ≤ book.maxBytes := by
    rw [← linesFrom_snoc, linesFrom_length]
    exact fits
  rcases torn_line crates book.schema records.length record count with whole | unfinished
  · right
    rw [whole] at appended ⊢
    refine ⟨⟨[], List.not_mem_nil, ?_, ?_⟩, ?_⟩
    · rw [List.append_nil, linesFrom_snoc]
      exact room
    · rw [List.append_nil, linesFrom_snoc]
      exact appended
    · refine (ordered_append 0 records [record]).mpr ⟨inStep.ordered, ?_, trivial⟩
      rw [order, Nat.zero_add, List.length_eq_zero_iff]
  · left
    refine ⟨⟨_, unfinished, ?_, appended⟩, inStep.ordered⟩
    refine le_trans ?_ room
    rw [List.length_append, List.length_append]
    have shorter := List.length_take_le count
      (Writer.line crates book.schema records.length record)
    have shortest := List.length_take_le' count
      (Writer.line crates book.schema records.length record)
    omega

theorem InStep.appended {record : Record} (inStep : book.InStep records writer world)
    (order : record.isHeader = true ↔ records = [])
    (fits : linesCost crates book.schema 0 (records ++ [record]) ≤ book.maxBytes) :
    book.InStep (records ++ [record]) (book.writer (records ++ [record]))
      (world.append book.file (Writer.line crates book.schema records.length record)) := by
  have appended := Stores.append inStep.stores
    (Writer.line crates book.schema records.length record)
  rw [← linesFrom_snoc] at appended
  refine ⟨appended, rfl, ?_, fits⟩
  refine (ordered_append 0 records [record]).mpr ⟨inStep.ordered, ?_, trivial⟩
  rw [order, Nat.zero_add, List.length_eq_zero_iff]

theorem meets_journalIo {τ : Type} {guard : {ρ : Type} → FsOp ρ → World → Prop}
    (call : FsCall τ) (post : Except JournalError τ → World → Prop) (start : World) :
    (journalIo call).run.Meets (fsMachine host weather) guard post start ↔
      guard (.io call) start ∧ ∀ answer finish,
        (fsMachine host weather).step (.io call) start answer finish →
          post (answer.mapError fun error => "operation journal I/O failed: " ++ error.message)
            finish := by
  unfold journalIo
  rw [Task.meets_except_adapt]
  exact Task.meets_perform _ _ _

/-- The line is written and synchronized, or the writer stays poisoned. -/
theorem written_logs {record : Record} {post : Except JournalError Nat → List Record → Prop}
    (inStep : book.InStep records writer world) (safe : book.safe records)
    (order : record.isHeader = true ↔ records = [])
    (fits : linesCost crates book.schema 0 (records ++ [record]) ≤ book.maxBytes)
    (safeAfter : book.safe (records ++ [record]))
    (appended : post (.ok records.length) (records ++ [record])) :
    ((do
        set { book.writer records with poisoned := true }
        ExceptT.mk (StateT.lift (journalIo (.write (book.writer records).file
          (Writer.line crates (book.writer records).schema (book.writer records).nextSeq
            record))).run)
        ExceptT.mk (StateT.lift (journalIo (.syncFile (book.writer records).file)).run)
        set { book.writer records with
          poisoned := true
          bytes := linesCost crates book.schema 0 (records ++ [record]) }
        match checkedAdd (book.writer records).nextSeq 1 with
        | none => throw "operation journal sequence overflow"
        | some nextSeq =>
            set { book.writer records with
              poisoned := false
              bytes := linesCost crates book.schema 0 (records ++ [record])
              nextSeq }
            return (book.writer records).nextSeq :
        ExceptT JournalError (StateT Writer (Task FsOp)) Nat).run.run
      (book.writer records)).Meets (fsMachine host weather)
        (book.Cautious host weather mayRefuse)
        (fun result finish => book.Session (post result.1) result.2 finish) world := by
  have torn : ∀ count, book.Recorded (world.append book.file
      ((Writer.line crates book.schema records.length record).take count)) := by
    intro count
    rcases Logged.written inStep order fits count with before | after
    · exact .inr ⟨records, safe, before⟩
    · exact .inr ⟨_, safeAfter, after⟩
  have left : ∀ finish (broken : Writer), broken.poisoned = true →
      (finish = world ∨ ∃ count, finish = world.append book.file
        ((Writer.line crates book.schema records.length record).take count)) →
      ∀ result, book.Session (post result) broken finish := by
    intro finish broken poisoned came result
    rcases came with rfl | ⟨count, rfl⟩
    · exact ⟨records, safe, .inr ⟨poisoned, inStep.logged⟩⟩
    · rcases Logged.written inStep order fits count with before | after
      · exact ⟨records, safe, .inr ⟨poisoned, before⟩⟩
      · exact ⟨_, safeAfter, .inr ⟨poisoned, after⟩⟩
  have whole : ∀ start : World, start.append book.file
        (Writer.line crates book.schema records.length record) = start.append book.file
          ((Writer.line crates book.schema records.length record).take
            (Writer.line crates book.schema records.length record).length) := by
    intro start
    rw [List.take_length]
  rw [Task.meets_session_bind, Task.meets_session_set]
  dsimp only
  rw [Task.meets_session_bind, Task.meets_session_lift, meets_journalIo]
  refine ⟨⟨.inr ⟨records, safe, inStep.logged⟩, ?_⟩, fun answer middle stepped => ?_⟩
  · rintro _ ⟨count, rfl⟩
    exact torn count
  rcases stepped with executed | ⟨_, error, rfl, came, _⟩
  · cases executed
    dsimp only [Except.mapError]
    have next := inStep.appended order fits
    rw [Task.meets_session_bind, Task.meets_session_lift, meets_journalIo]
    refine ⟨⟨.inr ⟨_, safeAfter, next.logged⟩, fun _ => False.elim⟩, fun answer last synced => ?_⟩
    have same := (quiet_syncFile book.file _).2 answer last synced
    subst same
    cases answer with
    | error error =>
        apply left _ _ rfl
        exact .inr ⟨_, whole world⟩
    | ok value =>
        dsimp only [Except.mapError]
        rw [Task.meets_session_bind, Task.meets_session_set]
        have small : checkedAdd (book.writer records).nextSeq 1 = some (records.length + 1) := by
          have counted := length_le_linesCost crates book.schema 0 (records ++ [record])
          have limit := book.bounded
          rw [List.length_append, List.length_singleton] at counted
          have less : records.length + 1 ≤ u64Max := by omega
          exact if_pos less
        dsimp only
        rw [small]
        dsimp only
        rw [Task.meets_session_bind, Task.meets_session_set]
        have known : book.writer (records ++ [record]) = { book.writer records with
            bytes := linesCost crates book.schema 0 (records ++ [record])
            nextSeq := records.length + 1 } := by
          simp [Logbook.writer]
        exact ⟨_, safeAfter, .inl ⟨{ next with knows := known.symm }, appended⟩⟩
  · apply left _ _ rfl
    rcases came with rfl | ⟨rfl, _⟩ | ⟨count, rfl⟩
    · exact .inl rfl
    · exact .inr ⟨_, whole world⟩
    · exact .inr ⟨count, rfl⟩

/-- A record is appended, or refused for its size, or the writer is poisoned. -/
theorem append_logs (record : Record) {post : Except JournalError Nat → List Record → Prop}
    (step : ∀ records, book.safe records → pre records →
      (record.isHeader = true ↔ records = []) ∧ book.safe (records ++ [record]) ∧
      post (.ok records.length) (records ++ [record]) ∧
      (linesCost crates book.schema 0 (records ++ [record]) ≤ book.maxBytes ∨
        mayRefuse ∧ (weather.refuses → ∀ error, post (.error error) records))) :
    book.Logs (fsMachine host weather) (book.Cautious host weather mayRefuse)
      (Writer.append crates record).run pre post := by
  intro writer world session
  unfold Writer.append
  rw [Task.meets_session_bind, Task.meets_session_get]
  obtain ⟨records, safe, ⟨inStep, holds⟩ | ⟨poisoned, logged⟩⟩ := session
  · obtain ⟨order, safeAfter, appended, room⟩ := step records safe holds
    have cost : linesCost crates book.schema 0 (records ++ [record]) =
        linesCost crates book.schema 0 records +
          (Writer.line crates book.schema records.length record).length := by
      rw [linesCost_append, line_length]
      simp [linesCost]
    have limit := book.bounded
    obtain ⟨stores, rfl, ordered, room'⟩ := inStep
    have valid : validateOrder (book.writer records).nextSeq record
        (saturatingAdd (book.writer records).nextSeq 1) = .ok () := by
      rw [validateOrder_ok, order]
      exact List.length_eq_zero_iff.symm
    have sound : ¬ (book.writer records).poisoned = true := Bool.false_ne_true
    have sum : saturatingAdd (book.writer records).bytes
        (Writer.line crates (book.writer records).schema (book.writer records).nextSeq
          record).length = min (linesCost crates book.schema 0 (records ++ [record])) u64Max := by
      rw [cost]
      rfl
    simp only [if_neg sound]
    rw [Task.meets_session_bind, Task.meets_session_result, valid]
    by_cases fits : linesCost crates book.schema 0 (records ++ [record]) ≤ book.maxBytes
    · have total : min (linesCost crates book.schema 0 (records ++ [record])) u64Max =
          linesCost crates book.schema 0 (records ++ [record]) := by omega
      have small : ¬ linesCost crates book.schema 0 (records ++ [record]) >
          (book.writer records).maxBytes := Nat.not_lt_of_le fits
      simp only [sum, total, if_neg small]
      exact written_logs ⟨stores, rfl, ordered, room'⟩ safe order fits safeAfter appended
    · have exceeds : min (linesCost crates book.schema 0 (records ++ [record])) u64Max >
          (book.writer records).maxBytes := by
        change book.maxBytes < _
        omega
      simp only [sum, if_pos exceeds]
      rw [Task.meets_session_bind, Task.meets_session_task, Task.meets_perform]
      rcases room with fits' | ⟨may, refused⟩
      · exact absurd fits' fits
      · have inStep : book.InStep records (book.writer records) world :=
          ⟨stores, rfl, ordered, room'⟩
        refine ⟨⟨.inr ⟨records, safe, inStep.logged⟩, may⟩, ?_⟩
        rintro _ _ ⟨refuses, rfl⟩
        exact ⟨records, safe, .inl ⟨inStep, refused refuses _⟩⟩
  · simp only [if_pos poisoned]
    exact ⟨records, safe, .inr ⟨poisoned, logged⟩⟩

end

end Logbook

end Worktree
