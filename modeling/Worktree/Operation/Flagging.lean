import Worktree.CrashLogic.Outcome
import Worktree.Filesystem.Calm
import Worktree.Operation.Committing
/-
What the recovery flag of a failed commit says about its journal.

The flag is set at the step that fails, before it is known whether the paths can
be restored. It is true of every run in which no directory fails to synchronize
while the journal announces a change or is gone already, no record is refused
for its size, and the removal of the journal does not answer the opposite of
what it did.
-/

namespace Worktree

open CrashLogic

/-- The error does not ask for a recovery. -/
def WorktreeError.Plain (error : WorktreeError) : Prop :=
  error.recoveryRequired = false

def WorktreeError.Flagged (error : WorktreeError) : Prop :=
  error.recoveryRequired = true

namespace Logbook

variable {T : Type} {crates : Crates T} (book : Logbook crates)

/-- The last record of the journal announces a change. -/
def Announced (world : World) : Prop :=
  ∃ records index, world.Stores book.slot book.file
    (linesFrom crates book.schema 0 (records ++ [.commitIntent index]))

/-- The answers after which the flag of an error may be wrong. -/
def Mishap (host : Host) : {ρ : Type} → FsOp ρ → World → ρ → World → Prop
  | _, .io (.syncDir _), start, .error _, _ =>
      book.Announced start ∨ start.look book.slot = none
  | _, .io (.removeFile dir name), _, .error error, finish =>
      host.slot dir name = book.slot ∧
        (error.kind = .notFound ↔ (finish.look book.slot).isSome = true)
  | _, .refuseAppend, _, _, _ => True
  | _, _, _, _, _ => False

/-- The machine in which none of them ever comes. -/
abbrev careful (host : Host) (weather : Weather) : Machine FsOp World :=
  (fsMachine host weather).without (book.Mishap host)

/-- An error asks for a recovery exactly when the journal is still there. -/
def Truthful (error : WorktreeError) (world : World) : Prop :=
  error.recoveryRequired = true ↔ (world.look book.slot).isSome = true

variable {book} {host : Host} {weather : Weather} {α β : Type} {pre : List Record → Prop}

/-- From a session of this kind the program ends well, or with a truthful error. -/
def Reports (book : Logbook crates) (host : Host) (weather : Weather) (program : Journaled α)
    (pre : List Record → Prop) (good : α → Writer → World → Prop) : Prop :=
  ∀ writer world, book.Session pre writer world →
    (program.run.run writer).Meets (book.careful host weather) (fun _ _ => True)
      (fun result finish => match result with
        | (.ok value, after) => good value after finish
        | (.error error, _) => book.Truthful error finish) world

/-- The same as `Logs`, in runs without mishaps. -/
abbrev Keeps (book : Logbook crates) (host : Host) (weather : Weather)
    (program : StateT Writer (Task FsOp) α) (pre : List Record → Prop)
    (post : α → List Record → Prop) : Prop :=
  book.Logs (book.careful host weather) (fun _ _ => True) program pre post

/-- A run without mishaps never refuses a record. -/
theorem Logs.keeps {program : StateT Writer (Task FsOp) α} {post : α → List Record → Prop}
    (logs : book.Logs (fsMachine host { weather with refuses := False })
      (book.Cautious host { weather with refuses := False } True) program pre post) :
    book.Keeps host weather program pre post := by
  intro writer world session
  refine Task.Meets.guard_mono (Task.Meets.machine_mono (logs writer world session) ?_)
    fun _ _ _ => trivial
  intro ρ op here answer finish stepped
  obtain ⟨stepped, careful⟩ := stepped
  cases op with
  | io call => exact stepped
  | unlock file => exact stepped
  | refuseAppend => exact absurd trivial careful

theorem Session.present {writer : Writer} {world : World}
    (session : book.Session pre writer world) : (world.look book.slot).isSome = true := by
  obtain ⟨seen, shows, _⟩ := session.look
  rw [shows]
  rfl

/-! ### Composing -/

theorem Keeps.reports {program : Journaled α} {middle : Except WorktreeError α → List Record → Prop}
    (keeps : book.Keeps host weather program.run pre middle)
    (signals : Task.Signals program WorktreeError.Flagged) :
    book.Reports host weather program pre fun value => book.Session (middle (.ok value)) := by
  intro writer world session
  refine ((keeps writer world session).and ((signals writer).meets world)).mono
    fun result finish ended => ?_
  obtain ⟨error | value, after⟩ := result
  · have flagged : error.recoveryRequired = true := ended.2 error rfl
    exact ⟨fun _ => ended.1.present, fun _ => flagged⟩
  · exact ended.1

theorem Reports.bind {program : Journaled α} {next : α → Journaled β}
    {middle : α → List Record → Prop} {good : β → Writer → World → Prop}
    (first : book.Reports host weather program pre fun value => book.Session (middle value))
    (second : ∀ value, book.Reports host weather (next value) (middle value) good) :
    book.Reports host weather (program >>= next) pre good := by
  intro writer world session
  rw [Task.meets_session_bind]
  refine (first writer world session).mono fun result finish ended => ?_
  obtain ⟨error | value, after⟩ := result
  · exact ended
  · exact second value after finish ended

theorem Reports.mono {program : Journaled α} {pre' : List Record → Prop}
    {good good' : α → Writer → World → Prop} (reports : book.Reports host weather program pre good)
    (stronger : ∀ records, pre' records → pre records)
    (weaker : ∀ value after finish, good value after finish → good' value after finish) :
    book.Reports host weather program pre' good' := by
  intro writer world session
  refine (reports writer world (session.mono fun records _ => stronger records)).mono
    fun result finish ended => ?_
  obtain ⟨error | value, after⟩ := result
  · exact ended
  · exact weaker value after finish ended

/-- What follows the last step passes a value on. -/
theorem Reports.then_pure {program : Journaled α} {good : α → Writer → World → Prop}
    (reports : book.Reports host weather program pre good) (value : β) :
    book.Reports host weather (program >>= fun _ => pure value) pre fun _ _ _ => True := by
  intro writer world session
  rw [Task.meets_session_bind]
  refine (reports writer world session).mono fun result finish ended => ?_
  obtain ⟨error | found, after⟩ := result
  · exact ended
  · exact trivial

/-- The session can only go on to an error. -/
def Stuck (program : Journaled α) : Prop :=
  ∀ writer : Writer, writer.poisoned = true →
    (program.run.run writer).Ends fun result => ∃ error, result.1 = .error error

/-- A program that removes the journal, and after it the error that came before:
the error is plain as long as the writer is not poisoned. -/
theorem Reports.then_throw {program : Journaled α} {error : WorktreeError}
    {good : β → Writer → World → Prop}
    (reports : book.Reports host weather program pre fun _ _ finish =>
      finish.look book.slot = none)
    (plain : ∀ records, pre records → error.Plain) (stuck : Stuck program) :
    book.Reports host weather (program >>= fun _ => throw error) pre good := by
  intro writer world session
  rw [Task.meets_session_bind]
  have ran := reports writer world session
  obtain ⟨records, safe, ⟨inStep, holds⟩ | ⟨poisoned, logged⟩⟩ := session
  · refine ran.mono fun result finish ended => ?_
    obtain ⟨found | value, after⟩ := result
    · exact ended
    · have unset : error.recoveryRequired = false := plain records holds
      have gone : finish.look book.slot = none := ended
      change book.Truthful error finish
      rw [Truthful, unset, gone]
      exact Iff.rfl
  · refine (ran.and ((stuck writer poisoned).meets world)).mono fun result finish ended => ?_
    obtain ⟨found | value, after⟩ := result
    · exact ended.1
    · obtain ⟨_, impossible⟩ := ended.2
      cases impossible

/-! ### Records -/

/-- The journal has begun. -/
def Begun (records : List Record) : Prop := records ≠ []

theorem append_keeps {record : Record} (wrap : JournalError → WorktreeError)
    (body : record.isHeader = false) (lax : ∀ records, book.safe records) :
    book.Keeps host weather (appendOr crates record wrap).run Begun
      fun result records => result = .ok () ∧ ∃ earlier, records = earlier ++ [record] := by
  refine Logs.keeps (appendOr_logs record wrap fun records _ begun => ?_)
  refine ⟨?_, lax _, ⟨rfl, records, rfl⟩, .inr ⟨trivial, False.elim⟩⟩
  constructor
  · intro header
    rw [body] at header
    cases header
  · intro empty
    exact absurd empty begun

theorem append_signals {record : Record} {wrap : JournalError → WorktreeError}
    (flagged : ∀ error, (wrap error).Flagged) :
    Task.Signals (appendOr crates record wrap) WorktreeError.Flagged :=
  Task.signals_adapt flagged

theorem append_reports {record : Record} {wrap : JournalError → WorktreeError}
    (flagged : ∀ error, (wrap error).Flagged) (body : record.isHeader = false)
    (lax : ∀ records, book.safe records) :
    book.Reports host weather (appendOr crates record wrap) Begun fun _ => book.Session Begun := by
  refine (Keeps.reports (append_keeps wrap body lax) (append_signals flagged)).mono
    (fun _ => id) fun _ after finish session => ?_
  refine session.mono fun records _ holds => ?_
  obtain ⟨_, earlier, rfl⟩ := holds
  exact List.append_ne_nil_of_right_ne_nil _ (List.cons_ne_nil _ _)

theorem append_stuck (record : Record) (wrap : JournalError → WorktreeError) :
    Stuck (appendOr crates record wrap) := by
  intro writer poisoned
  obtain ⟨file, schema, nextSeq, bytes, maxBytes, _⟩ := writer
  cases poisoned
  exact ⟨_, rfl⟩

theorem Stuck.bind {program : Journaled α} (stuck : Stuck program) (next : α → Journaled β) :
    Stuck (program >>= next) := by
  intro writer poisoned
  rw [ExceptT.run_bind, StateT.run_bind, Task.ends_bind]
  refine (stuck writer poisoned).mono fun result failed => ?_
  obtain ⟨found, after⟩ := result
  obtain ⟨error, same⟩ := failed
  cases same
  exact ⟨error, rfl⟩

/-! ### Beside the journal -/

theorem beside_keeps {program : Action α} {kind : WorktreeError → Prop}
    (skirts : book.Skirts host { weather with refuses := False } program fun _ => True)
    (raises : Task.Raises program kind) :
    book.Keeps host weather (StateT.lift program.run) pre fun result records =>
      pre records ∧ ∀ error, result = .error error → kind error :=
  Logs.keeps (lift_logs (fun result => ∀ error, result = .error error → kind error)
    fun seen ino reserved => (Task.Ends.upholds raises (skirts seen ino reserved)).mono
      fun _ both => both.2)

theorem beside_reports {program : Action α}
    (skirts : book.Skirts host { weather with refuses := False } program fun _ => True)
    (raises : Task.Raises program WorktreeError.Flagged) :
    book.Reports host weather (beside program) pre fun _ => book.Session pre :=
  (Keeps.reports (beside_keeps skirts raises) raises.signals).mono (fun _ => id)
    fun _ _ _ session => session.mono fun _ _ holds => holds.1

/-! ### Removing the journal -/

theorem Session.file {writer : Writer} {world : World} (session : book.Session pre writer world) :
    ∃ seen, world.look book.slot = some seen ∧ seen.ino = book.file ∧
      seen.inode.kind = .file := by
  obtain ⟨records, safe, inStep | poisoned⟩ := session
  · obtain ⟨seen, shows, _, ino, kind, _⟩ := inStep.1.stores
    exact ⟨seen, shows, ino, kind⟩
  · obtain ⟨tail, _, _, seen, shows, _, ino, kind, _⟩ := poisoned.2.stores
    exact ⟨seen, shows, ino, kind⟩

/-- The entry is there exactly when the removal says it could not be removed. -/
theorem removeNamedJournal_reports {control : ControlDir} {world : World} {seen : Seen}
    (place : host.slot control.dir operationJournal = book.slot)
    (shows : world.look book.slot = some seen) (kind : seen.inode.kind = .file) :
    (control.removeNamedJournal operationJournal).run.Meets (book.careful host weather)
      (fun _ _ => True)
      (fun result finish => result.isOk = !(finish.look book.slot).isSome) world := by
  have there : (world.look book.slot).isSome = true := by rw [shows]; rfl
  unfold ControlDir.removeNamedJournal
  rw [Task.meets_except_bind]
  unfold attempt
  rw [Task.meets_except_lift]
  refine ⟨trivial, fun answer middle stepped => ?_⟩
  obtain ⟨stepped, careful⟩ := stepped
  have executed : (FsCall.removeFile control.dir operationJournal).exec host world =
      (.ok (), world.unlink book.slot) := by
    simp only [FsCall.exec, place, shows, kind]
    rfl
  rcases stepped with done | ⟨_, error, rfl, came, _⟩
  · rw [executed] at done
    cases done
    have gone : (world.unlink book.slot).look book.slot = none := World.look_unlink_self
    refine ⟨trivial, fun answer finish synced => ?_⟩
    obtain ⟨synced, careful⟩ := synced
    have same := (quiet_syncDir control.dir (world.unlink book.slot)).2 answer finish synced
    subst same
    cases answer with
    | ok value =>
        change _ = !_
        rw [gone]
        rfl
    | error error => exact absurd (Or.inr gone) careful
  · have apart : ¬ (error.kind = .notFound ↔ (middle.look book.slot).isSome = true) :=
      fun both => careful ⟨place, both⟩
    change Task.Meets _ _ (ExceptT.run
      (if error.kind = .notFound then pure () else throw error : Io Unit)) _ middle
    split
    · next missing =>
        have gone : (middle.look book.slot).isSome = false := by
          by_contra left
          exact apart ⟨fun _ => (Bool.not_eq_false _).mp left, fun _ => missing⟩
        change _ = !_
        rw [gone]
        rfl
    · next other =>
        have left : (middle.look book.slot).isSome = true := by
          by_contra gone
          exact apart ⟨fun missing => absurd missing other, fun still => absurd still gone⟩
        change _ = !_
        rw [left]
        rfl

theorem removeJournal_reports (transaction : PreparedWorktreeTransaction)
    (place : host.slot transaction.control.dir operationJournal = book.slot) (message : String) :
    book.Reports host weather (beside (Commit.removeJournal transaction message)) pre
      fun _ _ finish => finish.look book.slot = none := by
  intro writer world session
  obtain ⟨seen, shows, ino, kind⟩ := session.file
  have there : (world.look book.slot).isSome = true := session.present
  have removed : transaction.control.removeOperationJournal.run.Meets (book.careful host weather)
      (fun _ _ => True)
      (fun result finish => result.isOk = !(finish.look book.slot).isSome) world := by
    unfold ControlDir.removeOperationJournal
    rw [Task.meets_except_bind]
    refine (Task.Meets.without (meets_of_yields (ControlDir.openNamedJournal_finds
      fun here same => ⟨seen, by rw [same, place]; exact shows, ino, kind⟩)
      fun _ _ => trivial)).mono fun current here found => ?_
    obtain ⟨rfl, found⟩ := found
    cases current with
    | error error =>
        change _ = !_
        rw [there]
        rfl
    | ok current =>
        have same := found _ rfl
        subst same
        dsimp only
        rw [Task.meets_except_bind]
        refine (Task.Meets.without (meets_of_yields (Reads.yields
          (ControlDir.openNamedJournal_reads _)) fun _ _ => trivial)).mono fun legacy here found => ?_
        obtain ⟨rfl, _⟩ := found
        cases legacy with
        | error error =>
            change _ = !_
            rw [there]
            rfl
        | ok legacy =>
            cases legacy with
            | none => exact removeNamedJournal_reports place shows kind
            | some other =>
                change _ = !_
                rw [there]
                rfl
  unfold beside Commit.removeJournal orElse
  rw [Task.meets_session_lift, Task.meets_except_adapt]
  refine removed.mono fun result finish agrees => ?_
  cases result with
  | ok value =>
      have gone : (finish.look book.slot).isSome = false := by
        simpa [Except.isOk, Except.toBool] using agrees
      exact Option.isNone_iff_eq_none.mp (by simpa using gone)
  | error error =>
      have left : (finish.look book.slot).isSome = true := by
        simpa [Except.isOk, Except.toBool] using agrees
      exact ⟨fun _ => left, fun _ => rfl⟩

/-! ### Errors of the steps -/

section

variable {path : StagedPath} {transaction : PreparedWorktreeTransaction}

theorem pathError_plain (phase : TransactionPhase) (path : StagedPath) (index : Nat)
    (message : String) (source : IoError) :
    (Commit.pathError phase path index message source).Plain := rfl

theorem verifySlot_raises (path : StagedPath) (expected : SlotEvidence) (index : Nat)
    (message : String) :
    Task.Raises (Commit.verifySlot crates transaction path expected index message)
      WorktreeError.Plain := by
  unfold Commit.verifySlot
  exact Task.Raises.bind (Task.raises_adapt (pathError_plain _ path index message)) fun _ =>
    Task.raises_pure _

theorem verifyArtifact_raises (path : StagedPath) (name : Option String)
    (expected : Option PresentEvidence) (maxBytes index : Nat) (message : String) :
    Task.Raises (Commit.verifyArtifact crates path name expected maxBytes index message)
      WorktreeError.Plain := by
  unfold Commit.verifyArtifact
  cases name with
  | none =>
      cases expected with
      | none => exact Task.raises_pure _
      | some expected => exact Task.raises_throw rfl
  | some name =>
      cases expected with
      | none => exact Task.raises_throw rfl
      | some expected =>
          refine Task.Raises.bind (Task.raises_adapt (pathError_plain _ path index message))
            fun actual => ?_
          exact Task.raises_ite (fun _ => Task.raises_pure _) fun _ => Task.raises_throw rfl

theorem verifyAll_raises :
    Task.Raises (Commit.verifyAll crates transaction) WorktreeError.Plain := by
  refine Task.raises_forM fun item _ => ?_
  obtain ⟨path, index⟩ := item
  change Task.Raises (Commit.verifyPath crates transaction path index) _
  unfold Commit.verifyPath
  refine Task.Raises.bind (Task.raises_adapt (pathError_plain _ path index _)) fun _ => ?_
  refine Task.Raises.bind (verifySlot_raises path _ index _) fun _ => ?_
  refine Task.Raises.bind (verifyArtifact_raises path _ _ _ index _) fun _ => ?_
  exact verifyArtifact_raises path _ _ _ index _

/-- Where something is to be put, something is staged. -/
def Staged (path : StagedPath) : Prop :=
  ∀ evidence, path.after = .present evidence → ∃ stage, path.stageName = some stage

theorem required_raises (staged : Staged path) {evidence : PresentEvidence}
    (after : path.after = .present evidence) :
    Task.Raises (liftWorktree (Commit.required path.stageName path)) WorktreeError.Plain := by
  obtain ⟨stage, named⟩ := staged evidence after
  rw [named]
  exact Task.raises_pure _

theorem mutate_raises (staged : Staged path) :
    Task.Raises (Commit.mutate crates transaction path) WorktreeError.Plain := by
  have plain : ∀ message source, (Commit.mutationError path message source).Plain :=
    fun message source => pathError_plain _ path _ message source
  unfold Commit.mutate
  cases path.before with
  | absent =>
      cases after : path.after with
      | absent => exact Task.raises_throw rfl
      | present evidence =>
          exact Task.Raises.bind (required_raises staged after) fun _ =>
            Task.raises_adapt (plain _)
  | present before =>
      cases after : path.after with
      | absent => exact Task.raises_adapt (plain _)
      | present evidence =>
          exact Task.Raises.bind (required_raises staged after) fun _ =>
            Task.raises_adapt (plain _)

theorem cleanupPath_raises (index : Nat) (path : StagedPath) (artifacts : List String) :
    Task.Raises (cleanupPath index path artifacts) WorktreeError.Flagged := by
  induction artifacts with
  | nil => exact Task.raises_pure _
  | cons artifact rest ih =>
      unfold cleanupPath
      refine Task.Raises.bind (Task.raises_adapt fun _ => rfl) fun removed => ?_
      exact Task.Raises.bind ih fun _ => Task.raises_pure _

theorem cleanup_raises (paths : List StagedPath) :
    Task.Raises (cleanup paths) WorktreeError.Flagged := by
  have every : ∀ index, Task.Raises (cleanupFrom index paths) WorktreeError.Flagged := by
    induction paths with
    | nil => exact fun index => Task.raises_pure _
    | cons path rest ih =>
        intro index
        unfold cleanupFrom
        refine Task.Raises.bind (cleanupPath_raises index path _) fun removed => ?_
        exact Task.Raises.bind (ih (index + 1)) fun _ => Task.raises_pure _
  exact every 0

end

/-! ### One path -/

section

variable {path : StagedPath} {transaction : PreparedWorktreeTransaction} {index : Nat}

/-- What an error of a path says about the flag, unless nobody can classify it. -/
def PlainUnlessAmbiguous (result : Except (WorktreeError × MutationState) Unit) : Prop :=
  ∀ error, result = .error error → error.2 ≠ .ambiguous → error.1.Plain

theorem step_keeps {program : Action Unit} (state : MutationState)
    (skirts : book.Skirts host { weather with refuses := False } program fun _ => True)
    (raises : Task.Raises program WorktreeError.Plain) :
    book.Keeps host weather (program.step state).run pre fun result records =>
      pre records ∧ PlainUnlessAmbiguous result := by
  refine (logs_adapt (beside_keeps skirts raises)).post fun result records _ ended => ?_
  obtain ⟨found, rfl, holds, plain⟩ := ended
  refine ⟨holds, fun error same _ => ?_⟩
  cases found with
  | ok value => cases same
  | error source =>
      cases same
      exact plain source rfl

theorem appendStep_keeps {record : Record} (state : MutationState)
    (wrap : JournalError → WorktreeError) (body : record.isHeader = false)
    (lax : ∀ records, book.safe records) :
    book.Keeps host weather (appendStep crates record state wrap).run Begun
      fun result records => result = .ok () ∧ ∃ earlier, records = earlier ++ [record] := by
  refine (logs_adapt (append_keeps wrap body lax)).post fun result records _ ended => ?_
  obtain ⟨found, rfl, same, last⟩ := ended
  cases same
  exact ⟨rfl, last⟩

theorem classified_keeps {action : Action Unit}
    {wrap : MutationState → WorktreeError → WorktreeError}
    {kind : WorktreeError → Prop}
    (skirts : book.Skirts host { weather with refuses := False } action fun _ => True)
    (raises : Task.Raises action kind)
    (plain : ∀ state error, kind error → state ≠ .ambiguous → (wrap state error).Plain) :
    book.Keeps host weather (Commit.classified crates transaction path action wrap).run pre
      fun result records => pre records ∧ PlainUnlessAmbiguous result := by
  unfold Commit.classified
  refine Logs.bind (beside_keeps skirts raises) fun result => ?_
  cases result with
  | ok value =>
      refine (logs_pure _).post fun result records _ ended => ?_
      obtain ⟨rfl, holds, _⟩ := ended
      exact ⟨holds, fun error impossible => by cases impossible⟩
  | error error =>
      refine Logs.bind (Logs.keeps (lift_logs (fun _ => True) fun seen _ _ =>
        Task.Upholds.allowed_mono (classify_rests path) (fun _ => False.elim)
          fun _ _ => trivial)) fun state => ?_
      refine (logs_pure _).post fun result records _ ended => ?_
      obtain ⟨rfl, ⟨holds, plainly⟩, _⟩ := ended
      refine ⟨holds, fun found same sure => ?_⟩
      cases same
      exact plain state error (plainly error rfl) sure

theorem InStep.announced {records : List Record} {writer : Writer} {world : World} {at_ : Nat}
    (inStep : book.InStep (records ++ [.commitIntent at_]) writer world) : book.Announced world :=
  ⟨records, at_, inStep.stores⟩

/-- While the journal announces a change no directory fails to synchronize. -/
theorem synced_keeps :
    book.Keeps host weather (Commit.synced crates transaction path index).run
      (fun records => ∃ earlier at_, records = earlier ++ [.commitIntent at_])
      fun result records => Begun records ∧ PlainUnlessAmbiguous result := by
  intro writer world session
  obtain ⟨records, safe, ⟨inStep, earlier, at_, rfl⟩ | ⟨poisoned, logged⟩⟩ := session
  · have announced := inStep.announced
    unfold Commit.synced Commit.classified orElse TargetAccess.syncParent
    rw [ExceptT.run_mk, StateT.run_bind, Task.meets_bind, StateT.run_lift, Task.meets_bind,
      Task.meets_except_adapt]
    refine ⟨trivial, fun answer finish stepped => ?_⟩
    obtain ⟨stepped, careful⟩ := stepped
    have same := (quiet_syncDir path.access.parent world).2 answer finish stepped
    subst same
    cases answer with
    | error error => exact absurd (Or.inl announced) careful
    | ok value =>
        have begun : Begun (earlier ++ [Record.commitIntent at_]) :=
          List.append_ne_nil_of_right_ne_nil _ (List.cons_ne_nil _ _)
        refine ⟨_, safe, .inl ⟨inStep, begun, fun error impossible => ?_⟩⟩
        cases impossible
  · have kept : book.Keeps host weather (Commit.synced crates transaction path index).run
        (fun _ => False) fun _ _ => False :=
      Logs.keeps (classified_logs transaction _
        (skirts_orElse (skirts_reads TargetAccess.syncParent_reads)))
    refine (kept writer world ⟨records, safe, .inr ⟨poisoned, logged⟩⟩).mono
      fun result finish ended => ?_
    exact ended.mono fun _ _ => False.elim

/-- The steps of a path: as long as the writer is in step, an error is plain unless
nobody can classify the path. -/
theorem commitOne_keeps (apart : book.Apart host path) (staged : Staged path)
    (lax : ∀ records, book.safe records) :
    book.Keeps host weather (Commit.commitOne crates transaction path index).run Begun
      fun result records => Begun records ∧ PlainUnlessAmbiguous result := by
  have checked : ∀ (program : Action Unit),
      book.Skirts host { weather with refuses := False } program (fun _ => True) →
      Task.Raises program WorktreeError.Plain →
      book.Keeps host weather (program.step .unchanged).run Begun
        fun result records => Begun records ∧ PlainUnlessAmbiguous result :=
    fun program skirts raises => step_keeps .unchanged skirts raises
  have announced : book.Keeps host weather (appendStep crates (.commitIntent path.stableIndex)
      .unchanged fun error => (operationJournalError .commit
        "failed to synchronize operation commit intent" error).requiringRecovery).run Begun
      fun result records => result = .ok () ∧
        ∃ earlier, records = earlier ++ [.commitIntent path.stableIndex] :=
    appendStep_keeps .unchanged _ rfl lax
  have changed : book.Keeps host weather (Commit.mutated crates transaction path).run
      (fun records => ∃ earlier, records = earlier ++ [.commitIntent path.stableIndex])
      fun result records =>
        (∃ earlier, records = earlier ++ [.commitIntent path.stableIndex]) ∧
          PlainUnlessAmbiguous result := by
    refine classified_keeps (mutate_skirts apart) (mutate_raises staged)
      fun state error plain sure => ?_
    rw [if_neg sure]
    exact plain
  have committed : book.Keeps host weather (appendStep crates (.committed path.stableIndex)
      .changed fun error => (operationJournalError .commit
        "path changed but completion record did not synchronize" error).requiringRecovery).run
      Begun fun result records => Begun records ∧ PlainUnlessAmbiguous result := by
    refine (appendStep_keeps .changed _ rfl lax).post fun result records _ ended => ?_
    obtain ⟨rfl, earlier, rfl⟩ := ended
    exact ⟨List.append_ne_nil_of_right_ne_nil _ (List.cons_ne_nil _ _),
      fun error impossible => by cases impossible⟩
  have begun : ∀ {records : List Record} {index : Nat},
      (∃ earlier, records = earlier ++ [.commitIntent index]) → Begun records := by
    rintro _ index ⟨earlier, rfl⟩
    exact List.append_ne_nil_of_right_ne_nil _ (List.cons_ne_nil _ _)
  unfold Commit.commitOne
  refine Logs.except_bind (checked _ (skirts_orElse (skirts_reads (revalidateParent_reads _ _)))
    (Task.raises_adapt (pathError_plain _ path index _))) (fun _ => ?_) ?_
  · refine Logs.except_bind ((checked _ (verifySlot_skirts path _ index _)
      (verifySlot_raises path _ index _)).mono (fun _ _ holds => holds.1) fun _ _ _ => id)
      (fun _ => ?_) ?_
    · refine Logs.except_bind (announced.mono (fun _ _ holds => holds.1) fun _ _ _ => id)
        (fun _ => ?_) ?_
      · refine Logs.except_bind (changed.mono (fun _ _ holds => holds.2) fun _ _ _ => id)
          (fun _ => ?_) ?_
        · refine Logs.except_bind (synced_keeps.mono (fun _ _ holds => ?_) fun _ _ _ => id)
            (fun _ => ?_) ?_
          · obtain ⟨⟨earlier, same⟩, _⟩ := holds
            exact ⟨earlier, _, same⟩
          · exact committed.mono (fun _ _ holds => holds.1) fun _ _ _ => id
          · exact fun _ _ _ holds => holds
        · exact fun _ _ _ holds => ⟨begun holds.1, holds.2⟩
      · intro error records _ holds
        cases holds.1
    · exact fun _ _ _ holds => holds
  · exact fun _ _ _ holds => holds

end

/-! ### All paths -/

section

variable {transaction : PreparedWorktreeTransaction}

theorem commitPaths_keeps (lax : ∀ records, book.safe records) (done : List StagedPath)
    (rest : List (StagedPath × Nat))
    (sound : ∀ item ∈ rest, book.Apart host item.1 ∧ Staged item.1) :
    book.Keeps host weather (Commit.commitPaths crates transaction done rest).run Begun
      fun result records => Begun records ∧
        ∀ error changed, result = .error (.changed error changed) → error.Plain := by
  induction rest generalizing done with
  | nil =>
      refine (logs_pure _).post fun result records _ ended => ?_
      obtain ⟨rfl, begun⟩ := ended
      exact ⟨begun, fun error changed impossible => by cases impossible⟩
  | cons item rest ih =>
      obtain ⟨path, index⟩ := item
      obtain ⟨apart, staged⟩ := sound _ List.mem_cons_self
      unfold Commit.commitPaths
      refine Logs.except_bind (logs_adapt (commitOne_keeps apart staged lax)) (fun _ => ?_) ?_
      · refine (ih (done ++ [path]) fun item among =>
          sound item (List.mem_cons_of_mem _ among)).mono (fun records _ holds => ?_)
            fun _ _ _ => id
        obtain ⟨_, _, begun, _⟩ := holds
        exact begun
      · intro failure records _ holds
        obtain ⟨found, same, begun, plain⟩ := holds
        refine ⟨begun, fun error changed shape => ?_⟩
        cases found with
        | ok value => cases same
        | error failed =>
            obtain ⟨cause, state⟩ := failed
            cases same
            have known : state ≠ .ambiguous := by
              rintro rfl
              cases shape
            have sure : cause = error := by
              cases state <;> cases shape <;> rfl
            rw [← sure]
            exact plain _ rfl known

/-- The restoration of the paths that changed removes the journal or is flagged. -/
theorem rollbackChanged_reports {changed : List StagedPath}
    (place : host.slot transaction.control.dir operationJournal = book.slot)
    (lax : ∀ records, book.safe records) (apart : ∀ path ∈ changed, book.Apart host path) :
    book.Reports host weather (Commit.rollbackChanged crates transaction changed) Begun
      fun _ _ finish => finish.look book.slot = none := by
  have round : ∀ path ∈ changed, book.Reports host weather
      (Commit.rollbackOne crates transaction path) Begun fun _ => book.Session Begun := by
    intro path among
    unfold Commit.rollbackOne
    refine Reports.bind (append_reports (fun _ => rfl) rfl lax) fun _ => ?_
    refine Reports.bind (beside_reports (fun seen ino reserved =>
      Task.yields_adapt (restore_skirts (apart path among) seen ino reserved))
      (Task.raises_adapt fun _ => rfl)) fun _ => ?_
    exact append_reports (fun _ => rfl) rfl lax
  have restored : ∀ paths : List StagedPath, (∀ path ∈ paths, path ∈ changed) →
      book.Reports host weather (paths.forM (Commit.rollbackOne crates transaction)) Begun
        fun _ => book.Session Begun := by
    intro paths
    induction paths with
    | nil => exact fun _ writer world session => session
    | cons path rest ih =>
        intro within
        exact Reports.bind (round path (within path List.mem_cons_self)) fun _ =>
          ih fun other among => within other (List.mem_cons_of_mem _ among)
  unfold Commit.rollbackChanged
  refine Reports.bind (restored _ fun path => List.mem_reverse.mp) fun _ => ?_
  refine Reports.bind (append_reports (fun _ => rfl) rfl lax) fun _ => ?_
  refine Reports.bind (beside_reports (cleanup_skirts _) (cleanup_raises _)) fun _ => ?_
  exact removeJournal_reports transaction place _

theorem rollbackChanged_stuck (changed : List StagedPath) :
    Stuck (Commit.rollbackChanged crates transaction changed) := by
  unfold Commit.rollbackChanged
  cases backwards : changed.reverse with
  | nil =>
      change Stuck (appendOr crates _ _ >>= _)
      exact (append_stuck _ _).bind _
  | cons path rest =>
      refine Stuck.bind ?_ _
      change Stuck (Commit.rollbackOne crates transaction path >>= _)
      refine Stuck.bind ?_ _
      unfold Commit.rollbackOne
      exact (append_stuck _ _).bind _

theorem finishWithoutChanges_reports
    (place : host.slot transaction.control.dir operationJournal = book.slot)
    (lax : ∀ records, book.safe records) :
    book.Reports host weather (Commit.finishWithoutChanges crates transaction) Begun
      fun _ _ finish => finish.look book.slot = none := by
  unfold Commit.finishWithoutChanges
  refine Reports.bind (append_reports (fun _ => rfl) rfl lax) fun _ => ?_
  refine Reports.bind (beside_reports (cleanup_skirts _) (cleanup_raises _)) fun _ => ?_
  exact removeJournal_reports transaction place _

theorem finishWithoutChanges_stuck :
    Stuck (Commit.finishWithoutChanges crates transaction) := by
  unfold Commit.finishWithoutChanges
  exact (append_stuck _ _).bind _

/-- Whoever gives up before the first change reports a plain error. -/
theorem givenUp_reports {error : WorktreeError} {good : β → Writer → World → Prop}
    {pre : List Record → Prop}
    (place : host.slot transaction.control.dir operationJournal = book.slot)
    (lax : ∀ records, book.safe records)
    (knows : ∀ records, pre records → Begun records ∧ error.Plain) :
    book.Reports host weather (do
      Commit.finishWithoutChanges crates transaction
      throw (error.inTransaction transaction.transactionId) : Journaled β) pre good :=
  Reports.then_throw ((finishWithoutChanges_reports place lax).mono
    (fun records holds => (knows records holds).1) fun _ _ _ => id)
    (fun records holds => (knows records holds).2) finishWithoutChanges_stuck

theorem verified_reports
    (place : host.slot transaction.control.dir operationJournal = book.slot)
    (lax : ∀ records, book.safe records) :
    book.Reports host weather (Commit.verified crates transaction) Begun
      fun _ => book.Session Begun := by
  intro writer world session
  unfold Commit.verified
  rw [Task.meets_session_bind, ExceptT.run_lift, StateT.run_map, Task.meets_map]
  have verifying : book.Keeps host weather
      (StateT.lift (Commit.verifyAll crates transaction).run) Begun _ :=
    beside_keeps verifyAll_skirts verifyAll_raises
  refine (verifying writer world session).mono fun result finish ended => ?_
  obtain ⟨error | value, after⟩ := result
  · exact givenUp_reports place lax (fun records holds => ⟨holds.1, holds.2 error rfl⟩) after
      finish ended
  · exact ended.mono fun _ _ holds => holds.1

theorem commitAll_reports {discard : Action Unit}
    (place : host.slot transaction.control.dir operationJournal = book.slot)
    (lax : ∀ records, book.safe records)
    (sound : ∀ path ∈ transaction.paths, book.Apart host path ∧ Staged path)
    (skirts : book.Skirts host { weather with refuses := False } discard fun _ => True)
    (raises : Task.Raises discard WorktreeError.Flagged) :
    book.Reports host weather (Commit.commitAll crates transaction discard) Begun
      fun _ => book.Session Begun := by
  intro writer world session
  have among : ∀ item ∈ transaction.paths.zipIdx, item.1 ∈ transaction.paths := by
    intro item among
    obtain ⟨path, index⟩ := item
    exact List.fst_mem_of_mem_zipIdx among
  have ran : book.Keeps host weather
      (Commit.commitPaths crates transaction [] transaction.paths.zipIdx).run Begun _ :=
    commitPaths_keeps lax [] transaction.paths.zipIdx fun item here => sound _ (among item here)
  have shape : ((Commit.commitPaths crates transaction [] transaction.paths.zipIdx).run.run
      writer).Meets (book.careful host weather) (fun _ _ => True) _ world :=
    (commitPaths_changed transaction [] transaction.paths writer world).without
  unfold Commit.commitAll
  rw [Task.meets_session_bind, ExceptT.run_lift, StateT.run_map, Task.meets_map]
  refine ((ran writer world session).and shape).mono fun result finish ended => ?_
  obtain ⟨failure | value, after⟩ := result
  · cases failure with
    | ambiguous error => exact ⟨fun _ => ended.1.present, fun _ => rfl⟩
    | changed error changed =>
        obtain ⟨session, first⟩ := ended
        obtain ⟨_, top, _, same⟩ := first error changed rfl
        have apart : ∀ path ∈ changed, book.Apart host path := by
          intro path here
          rw [same] at here
          exact (sound path (List.mem_of_mem_take here)).1
        have undone : book.Reports host weather (do
            beside discard
            Commit.rollbackChanged crates transaction changed
            throw (error.inTransaction transaction.transactionId) : Journaled Unit)
            (fun records => Begun records ∧ error.Plain) fun _ => book.Session Begun := by
          refine Reports.bind (beside_reports skirts raises) fun _ => ?_
          exact Reports.then_throw ((rollbackChanged_reports place lax apart).mono
            (fun _ holds => holds.1) fun _ _ _ => id) (fun _ holds => holds.2)
            (rollbackChanged_stuck changed)
        exact undone after finish (session.mono fun records _ holds =>
          ⟨holds.1, holds.2 error changed rfl⟩)
  · exact ended.1.mono fun _ _ holds => holds.1

theorem appendFinishedCommit_reports (lax : ∀ records, book.safe records) :
    book.Reports host weather (Commit.appendFinishedCommit crates) Begun
      fun _ => book.Session Begun :=
  append_reports (fun _ => rfl) rfl lax

theorem commitJournaled_reports
    (place : host.slot transaction.control.dir operationJournal = book.slot)
    (lax : ∀ records, book.safe records)
    (sound : ∀ path ∈ transaction.paths, book.Apart host path ∧ Staged path) :
    book.Reports host weather (Commit.commitJournaled crates transaction) Begun
      fun _ _ _ => True := by
  unfold Commit.commitJournaled
  refine Reports.bind (verified_reports place lax) fun _ => ?_
  refine Reports.bind (commitAll_reports place lax sound (skirts_pure _ trivial)
    (Task.raises_pure _)) fun _ => ?_
  refine Reports.bind (appendFinishedCommit_reports lax) fun _ => ?_
  refine Reports.bind (beside_reports (cleanup_skirts _) (cleanup_raises _)) fun _ => ?_
  exact (removeJournal_reports transaction place _).then_pure _

end

end Logbook

end Worktree
