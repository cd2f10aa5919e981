import Worktree.Operation.Flagging
import Worktree.Undo.Conflict
import Worktree.Crates.Plain
/-
The recovery flag of a failed commit, with and without retained evidence.

A retained commit reads the whole undo store before it changes anything, and the
store says of itself that it is corrupt with the same flag.
-/

namespace Worktree

open CrashLogic

namespace Undo

/-- The identifiers of the receipts in a directory. -/
def listedIds (world : World) (dir : Ino) : List String :=
  ((world.table.entries.filter fun entry => entry.1.dir = dir).map fun entry =>
    entry.1.name).filterMap undoIdOf

variable {T : Type} {crates : Crates T} {host : Host} {weather : Weather} {world : World}
  {control : ControlDir} {options : WorktreeOptions}

/-- Every receipt can be read and the store is within its bounds. -/
structure Sound (crates : Crates T) (host : Host) (control : ControlDir)
    (options : WorktreeOptions) (world : World) : Prop where
  count : (listedIds world control.dir).length ≤ options.limits.maxUndoReceipts
  small : options.limits.maxTotalUndoBytes ≤ u64Max
  receipts : ∃ receipt : String → StoredReceipt,
    (∀ id : UndoId, id.value ∈ listedIds world control.dir →
      ∃ seen, StoredAs crates host control options world id (receipt id.value) seen) ∧
    ((listedIds world control.dir).map fun id =>
      (receipt id).retainedBytes + (receipt id).storedBytes).sum ≤
        options.limits.maxTotalUndoBytes

/-- A reader in a known world whose errors are plain. -/
abbrev Plainly {α : Type} (host : Host) (weather : Weather) (world : World) (program : Action α)
    (good : α → Prop) : Prop :=
  Task.Utters (fsMachine host weather) (fun _ => False) (fun here => here = world) program good
    WorktreeError.Plain

theorem storeIo_plain (error : IoError) : (storeIo error).Plain := rfl

theorem plainly_orElse {α : Type} {program : Io α} {good : α → Prop}
    (yields : Task.Yields (fsMachine host weather) (fun _ => False) (fun here => here = world)
      program good) :
    Plainly host weather world (orElse program storeIo) good :=
  Task.Yields.utters (Task.yields_adapt yields) (Task.raises_adapt storeIo_plain)

theorem readExact_plainly {id : UndoId} {receipt : StoredReceipt} {seen : Seen}
    (stored : StoredAs crates host control options world id receipt seen) :
    Plainly host weather world (readExact crates control id.value options)
      fun found => found = some receipt := by
  have opened : Task.Yields (fsMachine host weather) (fun _ => False) (fun here => here = world)
      (control.openUndoReceipt id.value) fun found => found = some seen.ino := by
    unfold ControlDir.openUndoReceipt
    rw [undoName_id]
    refine ControlDir.openNamedJournal_finds fun here same => ?_
    subst same
    exact ⟨seen, stored.shows, rfl, stored.file⟩
  have described : Task.Yields (fsMachine host weather) (fun _ => False)
      (fun here => here = world) (perform (.metadata seen.ino))
      fun metadata => metadata = seen.metadata := by
    refine yields_answer (.inl (quiet_metadata _)) fun here metadata same executed => ?_
    subst same
    cases executed
    rw [seen_of_look stored.shows]
  have whole : Task.Yields (fsMachine host weather) (fun _ => False) (fun here => here = world)
      (perform (.read seen.ino (options.limits.maxJournalBytes + 1)))
      fun bytes => bytes = seen.inode.bytes := by
    refine yields_answer (.inl (quiet_read _ _)) fun here bytes same executed => ?_
    subst same
    simp only [FsCall.exec, inode_of_look stored.shows, stored.file] at executed
    rw [if_neg FileKind.noConfusion, take_whole stored.short] at executed
    cases executed
    rfl
  have read : Plainly host weather world (readReceipt crates seen.ino id.value options)
      fun found => found = receipt := by
    unfold readReceipt
    refine Task.Utters.bind (plainly_orElse described) fun metadata same => ?_
    subst same
    refine Task.utters_check ?_ ?_
    · simp [Seen.metadata, stored.file, stored.short]
    refine Task.Utters.bind (plainly_orElse whole) fun bytes same => ?_
    subst same
    refine Task.utters_check (Nat.not_lt_of_le stored.short) ?_
    rw [stored.decodes]
    exact Task.utters_pure _ rfl
  unfold readExact
  refine Task.Utters.bind (plainly_orElse opened) fun found same => ?_
  subst same
  exact Task.Utters.bind read fun found same => Task.utters_pure _ (by rw [same])

theorem usageFrom_plainly (receipt : String → StoredReceipt)
    (small : options.limits.maxTotalUndoBytes ≤ u64Max) (ids : List String) (bytes : Nat)
    (readable : ∀ id ∈ ids, ∃ (undo : UndoId) (seen : Seen), undo.value = id ∧
      StoredAs crates host control options world undo (receipt id) seen)
    (within : bytes + (ids.map fun id =>
      (receipt id).retainedBytes + (receipt id).storedBytes).sum ≤
        options.limits.maxTotalUndoBytes) :
    Plainly host weather world (usageFrom crates control options bytes ids) fun _ => True := by
  induction ids generalizing bytes with
  | nil => exact Task.utters_pure _ trivial
  | cons id rest ih =>
      obtain ⟨undo, seen, rfl, stored⟩ := readable _ List.mem_cons_self
      rw [List.map_cons, List.sum_cons] at within
      unfold usageFrom
      refine Task.Utters.bind (readExact_plainly stored) fun found same => ?_
      subst same
      change Plainly host weather world (_ >>= _) _
      refine Task.Utters.bind (Task.utters_pure _ rfl) fun found same => ?_
      subst same
      have counted : ((checkedAdd bytes (receipt undo.value).retainedBytes).bind fun value =>
          checkedAdd value (receipt undo.value).storedBytes) =
          some (bytes + (receipt undo.value).retainedBytes +
            (receipt undo.value).storedBytes) := by
        have first : bytes + (receipt undo.value).retainedBytes ≤ u64Max := by omega
        have second : bytes + (receipt undo.value).retainedBytes +
          (receipt undo.value).storedBytes ≤ u64Max := by omega
        simp only [checkedAdd, if_pos first, Option.bind_some, if_pos second]
      rw [counted]
      refine Task.Utters.bind (Task.utters_pure _ rfl) fun total same => ?_
      subst same
      refine Task.utters_check (by omega) ?_
      exact ih _ (fun other among => readable other (List.mem_cons_of_mem _ among)) (by omega)

theorem validated_yields (ids : List String) :
    Task.Yields (fsMachine host weather) (fun _ => False) (fun here => here = world)
      (ids.forM fun id => liftExcept (validateUndoId id))
      fun _ => ∀ id ∈ ids, isValidId id = true := by
  induction ids with
  | nil => exact Task.yields_pure _ fun id among => absurd among List.not_mem_nil
  | cons id rest ih =>
      refine Task.Yields.bind yields_liftExcept fun value passed => ?_
      have valid : isValidId id = true := by
        by_contra invalid
        rw [validateUndoId, if_neg invalid] at passed
        cases passed
      refine Task.Yields.mono ih fun _ others other among => ?_
      rcases List.mem_cons.mp among with rfl | later
      · exact valid
      · exact others other later

theorem undoReceiptIds_yields :
    Task.Yields (fsMachine host weather) (fun _ => False) (fun here => here = world)
      control.undoReceiptIds fun ids =>
        ids = listedIds world control.dir ∧ ∀ id ∈ ids, isValidId id = true := by
  have listed : Task.Yields (fsMachine host weather) (fun _ => False) (fun here => here = world)
      (perform (.entries control.dir))
      fun names => names.filterMap undoIdOf = listedIds world control.dir := by
    refine yields_answer (.inl (quiet_entries _)) fun here names same executed => ?_
    subst same
    cases executed
    rfl
  unfold ControlDir.undoReceiptIds
  refine Task.Yields.bind listed fun names same => ?_
  rw [same]
  refine Task.Yields.bind (validated_yields _) fun _ valid => ?_
  exact Task.yields_pure _ ⟨rfl, valid⟩

theorem storeUsage_plainly (sound : Sound crates host control options world) :
    Plainly host weather world (storeUsage crates control options) fun _ => True := by
  obtain ⟨receipt, stored, within⟩ := sound.receipts
  unfold storeUsage
  refine Task.Utters.bind (plainly_orElse undoReceiptIds_yields) fun ids same => ?_
  obtain ⟨rfl, valid⟩ := same
  refine Task.utters_check (Nat.not_lt_of_le sound.count) ?_
  refine Task.Utters.bind (usageFrom_plainly receipt sound.small _ 0 (fun id among => ?_)
    (by rw [Nat.zero_add]; exact within)) fun _ _ => Task.utters_pure _ trivial
  obtain ⟨seen, stored⟩ := stored ⟨id, valid id among⟩ among
  exact ⟨⟨id, valid id among⟩, seen, rfl, stored⟩

/-! ### Retaining evidence -/

section

variable {transaction : PreparedWorktreeTransaction}

/-- The sizes of the backups add up to a number of 64 bits. -/
def Countable (transaction : PreparedWorktreeTransaction) : Prop :=
  ∃ bytes, totalBytes (((transaction.paths.map receiptPath).filterMap ReceiptPath.backup).map
    PresentEvidence.bytes) = some bytes

theorem writeNew_raises (control : ControlDir) (id : String) (bytes : Bytes) :
    Task.Raises (writeNew control id bytes) WorktreeError.Plain := by
  unfold writeNew
  refine Task.Raises.bind (Task.raises_adapt storeIo_plain) fun file => ?_
  refine Task.Raises.bind (Task.raises_lift _) fun result => ?_
  cases result with
  | ok value => exact Task.raises_adapt storeIo_plain
  | error error =>
      exact Task.Raises.bind (Task.raises_lift _) fun _ => Task.raises_throw (storeIo_plain error)

theorem prepareRetention_plain (policy : UndoRetention)
    (sound : Sound crates host transaction.control transaction.options world)
    (countable : Countable transaction) :
    (prepareRetention crates transaction policy).run.Meets (fsMachine host weather)
      (fun _ _ => True) (fun result _ => ∀ error, result = .error error → error.Plain) world := by
  have writing : ∀ usage : UndoStoreUsage, Task.Raises (do
      let body ← liftWorktree (bodyFrom crates transaction)
      let checksum := bodyChecksum crates body
      let bytes := crates.receipt.encode ⟨body, checksum⟩
      let added := saturatingAdd body.retainedBytes bytes.length
      if usage.receipts + 1 > policy.maxReceipts ||
          usage.receipts + 1 > transaction.options.limits.maxUndoReceipts ||
          saturatingAdd usage.bytes added > policy.maxBytes ||
          saturatingAdd usage.bytes added > transaction.options.limits.maxTotalUndoBytes then
        throw (.new .undoStoreFull .commit "retained undo capacity is exhausted")
      writeNew transaction.control body.transactionId bytes
      return (⟨body, checksum, bytes.length⟩ : StoredReceipt)) WorktreeError.Plain := by
    intro usage
    obtain ⟨bytes, counted⟩ := countable
    refine Task.Raises.bind (Task.raises_result fun error failed => ?_) fun body => ?_
    · rw [bodyFrom, counted] at failed
      cases failed
    · refine Task.raises_ite (fun _ => ?_) fun _ => ?_
      · exact Task.Raises.bind (Task.raises_throw rfl) fun _ =>
          (writeNew_raises _ _ _).bind fun _ => Task.raises_pure _
      · exact (writeNew_raises _ _ _).bind fun _ => Task.raises_pure _
  unfold prepareRetention
  rw [Task.meets_except_bind]
  have policed : Task.Raises (liftWorktree (validatePolicy policy transaction.options))
      WorktreeError.Plain := by
    refine Task.raises_result fun error failed => ?_
    unfold validatePolicy at failed
    split at failed
    · cases failed
      rfl
    · cases failed
  cases checked : validatePolicy policy transaction.options with
  | error error =>
      intro found same
      cases same
      exact policed error (by rw [checked])
  | ok value =>
      rw [liftWorktree, ExceptT.run_mk, Task.meets_pure]
      dsimp only
      rw [Task.meets_except_bind]
      have still : (fsMachine host weather).Maintains (fun _ => False)
          (fun here => here = world) :=
        ⟨fun _ _ _ _ => False.elim, fun _ _ _ => False.elim⟩
      refine (Task.Upholds.meets (storeUsage_plainly sound) still rfl
        (fun here _ _ _ _ => trivial) fun _ _ => False.elim).mono fun result finish told => ?_
      cases result with
      | error error =>
          intro found same
          cases same
          exact told.2.2 error rfl
      | ok usage => exact Task.Ends.meets (writing usage) finish

end

end Undo

namespace Logbook

variable {T : Type} {crates : Crates T} {book : Logbook crates} {host : Host} {weather : Weather}
  {transaction : PreparedWorktreeTransaction}

theorem verified_still (writer : Writer) (world : World) :
    ((Commit.verified crates transaction).run.run writer).Meets (fsMachine host weather)
      (fun _ _ => True) (fun result finish => ∀ value, result.1 = .ok value → finish = world)
      world := by
  have reading : (Commit.verifyAll crates transaction).run.Meets (fsMachine host weather)
      (fun _ _ => True) _ world := Reads.meets verifyAll_rests fun _ _ => trivial
  unfold Commit.verified
  rw [Task.meets_session_bind, Task.meets_session_task]
  refine reading.mono fun result finish ended => ?_
  obtain ⟨rfl, _⟩ := ended
  cases result with
  | ok value => exact fun _ _ => rfl
  | error error =>
      dsimp only
      rw [Task.meets_session_bind]
      refine (Task.meets_true _ finish).mono fun result last _ => ?_
      obtain ⟨found | value, after⟩ := result
      · intro value impossible
        cases impossible
      · intro value impossible
        cases impossible

/-- The receipt is written, or the transaction given up with a plain error. -/
theorem prepared_meets (retention : UndoRetention) {writer : Writer} {world : World}
    (place : host.slot transaction.control.dir operationJournal = book.slot)
    (lax : ∀ records, book.safe records)
    (sound : Undo.Sound crates host transaction.control transaction.options world)
    (countable : Undo.Countable transaction) (session : book.Session Begun writer world) :
    ((Commit.prepared crates transaction retention).run.run writer).Meets
      (book.careful host weather) (fun _ _ => True)
      (fun result finish => match result with
        | (.ok _, after) => book.Session Begun after finish
        | (.error error, _) => book.Truthful error finish) world := by
  have kept : ((StateT.lift (Undo.prepareRetention crates transaction retention).run).run
      writer).Meets (book.careful host weather) (fun _ _ => True) _ world :=
    (Logs.keeps (lift_logs (fun _ => True) fun seen ino reserved => Task.Upholds.mono
      (prepareRetention_skirts retention seen ino reserved) fun _ _ => trivial)) writer world
      session
  have plain : ((StateT.lift (Undo.prepareRetention crates transaction retention).run).run
      writer).Meets (book.careful host weather) (fun _ _ => True)
      (fun result _ => ∀ error, result.1 = .error error → error.Plain) world := by
    rw [StateT.run_lift, Task.meets_bind]
    exact Task.Meets.without (Undo.prepareRetention_plain retention sound countable)
  unfold Commit.prepared
  rw [Task.meets_session_bind, ExceptT.run_lift, StateT.run_map, Task.meets_map]
  refine (kept.and plain).mono fun result finish ended => ?_
  obtain ⟨error | receipt, after⟩ := result
  · have bad : error.Plain := ended.2 error rfl
    have given : book.Reports host weather (do
        Commit.finishWithoutChanges crates transaction
        throw (error.inTransaction transaction.transactionId) : Journaled StoredReceipt)
        Begun fun _ => book.Session Begun :=
      givenUp_reports place lax fun records begun => ⟨begun, bad⟩
    refine (given after finish (ended.1.mono fun _ _ holds => holds.1)).mono
      fun result last told => ?_
    obtain ⟨found | receipt, after⟩ := result
    · exact told
    · exact told
  · exact ended.1.mono fun _ _ holds => holds.1

theorem discardTransitionalReceipt_raises :
    Task.Raises (Commit.discardTransitionalReceipt transaction) WorktreeError.Flagged :=
  Task.raises_adapt fun _ => rfl

theorem cleanupStages_raises :
    Task.Raises (Commit.cleanupStages transaction) WorktreeError.Flagged := by
  refine Task.raises_forM fun item _ => ?_
  obtain ⟨path, index⟩ := item
  change Task.Raises (Commit.cleanupStage path index) _
  unfold Commit.cleanupStage
  cases path.stageName with
  | none => exact Task.raises_pure _
  | some stage =>
      exact Task.Raises.bind (Task.raises_adapt fun _ => rfl) fun _ => Task.raises_pure _

theorem retainBackups_raises :
    Task.Raises (Commit.retainBackups crates transaction) WorktreeError.Flagged := by
  refine Task.raises_forM fun item _ => ?_
  obtain ⟨path, index⟩ := item
  change Task.Raises (Commit.retainBackup crates transaction path index) _
  unfold Commit.retainBackup
  cases path.backupName with
  | none => cases path.backup <;> exact Task.raises_pure _
  | some name =>
      cases path.backup with
      | none => exact Task.raises_pure _
      | some expected => exact Task.raises_adapt fun _ => rfl

theorem finishRetained_reports
    (place : host.slot transaction.control.dir operationJournal = book.slot)
    (lax : ∀ records, book.safe records) :
    book.Reports host weather (Commit.finishRetained crates transaction) Begun
      fun _ _ finish => finish.look book.slot = none := by
  unfold Commit.finishRetained
  refine Reports.bind (appendFinishedCommit_reports lax) fun _ => ?_
  refine Reports.bind (beside_reports cleanupStages_skirts cleanupStages_raises) fun _ => ?_
  refine Reports.bind (beside_reports retainBackups_skirts retainBackups_raises) fun _ => ?_
  exact removeJournal_reports transaction place _

theorem commitRetainedJournaled_meets (retention : UndoRetention) {writer : Writer}
    {world : World} (place : host.slot transaction.control.dir operationJournal = book.slot)
    (lax : ∀ records, book.safe records)
    (steady : ∀ path ∈ transaction.paths, book.Apart host path ∧ Staged path)
    (sound : Undo.Sound crates host transaction.control transaction.options world)
    (countable : Undo.Countable transaction) (session : book.Session Begun writer world) :
    ((Commit.commitRetainedJournaled crates transaction retention).run.run writer).Meets
      (book.careful host weather) (fun _ _ => True)
      (fun result finish => ∀ error, result.1 = .error error → book.Truthful error finish)
      world := by
  have first : book.Reports host weather (Commit.verified crates transaction) Begun _ :=
    verified_reports place lax
  have second : ((Commit.verified crates transaction).run.run writer).Meets
      (book.careful host weather) (fun _ _ => True) _ world :=
    (verified_still writer world).without
  have rest : ∀ receipt : StoredReceipt, book.Reports host weather (do
      Commit.commitAll crates transaction (Commit.discardTransitionalReceipt transaction)
      Commit.finishRetained crates transaction
      return (⟨Commit.applyReport transaction, receipt.publicReceipt⟩ : RetainedApplyReport))
      Begun fun _ _ _ => True := fun receipt =>
    Reports.bind (commitAll_reports place lax steady discardTransitionalReceipt_skirts
      discardTransitionalReceipt_raises) fun _ => (finishRetained_reports place lax).then_pure _
  unfold Commit.commitRetainedJournaled
  rw [Task.meets_session_bind]
  refine ((first writer world session).and second).mono fun result middle ended => ?_
  obtain ⟨found | value, after⟩ := result
  · intro error same
    cases same
    exact ended.1
  · have same : middle = world := ended.2 value rfl
    subst same
    dsimp only
    rw [Task.meets_session_bind]
    refine (prepared_meets retention place lax sound countable ended.1).mono
      fun result finish ended => ?_
    obtain ⟨found | receipt, last⟩ := result
    · intro error same
      cases same
      exact ended
    · refine (rest receipt last finish ended).mono fun result final ended => ?_
      obtain ⟨found | report, _⟩ := result
      · intro error same
        cases same
        exact ended
      · intro error same
        cases same

end Logbook

/-! ### The transaction as its preparation leaves it -/

section

variable {T : Type} (crates : Crates T) (host : Host) (transaction : PreparedWorktreeTransaction)

/-- The journal of the transaction, of which nothing more is asked. -/
def PreparedWorktreeTransaction.logbook (bounded : transaction.journal.maxBytes < u64Max) :
    Logbook crates where
  slot := host.slot transaction.control.dir operationJournal
  file := transaction.journal.file
  schema := transaction.journal.schema
  maxBytes := transaction.journal.maxBytes
  bounded := bounded
  safe := fun _ => True

/-- The writer has begun its journal, no path is the journal, and what is to be
installed is staged. -/
structure PreparedHere (records : List Record) (world : World) : Prop where
  bounded : transaction.journal.maxBytes < u64Max
  journal : (transaction.logbook crates host bounded).InStep records transaction.journal world
  begun : records ≠ []
  apart : ∀ path ∈ transaction.paths, (transaction.logbook crates host bounded).Apart host path
  staged : ∀ path ∈ transaction.paths, Logbook.Staged path
  countable : Undo.Countable transaction

variable {crates host transaction} {weather : Weather} {α : Type}

/-- Dropping the writer and the lock changes no error and no entry. -/
theorem consume_meets {book : Logbook crates} {session : Journaled α} {world : World}
    (meets : (session.run.run transaction.journal).Meets (book.careful host weather)
      (fun _ _ => True)
      (fun result finish => ∀ error, result.1 = .error error → book.Truthful error finish) world) :
    (transaction.consume session).run.Meets (book.careful host weather) (fun _ _ => True)
      (fun result finish => ∀ error, result = .error error → book.Truthful error finish)
      world := by
  unfold PreparedWorktreeTransaction.consume holding
  rw [ExceptT.run_mk, CrashLogic.Task.meets_bind, ExceptT.run_mk, CrashLogic.Task.meets_bind]
  refine meets.mono fun result middle ended => ?_
  refine ⟨trivial, fun answer finish stepped => ?_⟩
  obtain ⟨rfl, _⟩ := stepped
  exact ended

section

variable {bounded : transaction.journal.maxBytes < u64Max} {world : World}

theorem commit_tells
    (steady : ∀ path ∈ transaction.paths,
      (transaction.logbook crates host bounded).Apart host path ∧ Logbook.Staged path)
    (session : (transaction.logbook crates host bounded).Session Logbook.Begun
      transaction.journal world) :
    (transaction.commit crates).run.Meets
      ((transaction.logbook crates host bounded).careful host weather) (fun _ _ => True)
      (fun result finish => ∀ error, result = .error error →
        (transaction.logbook crates host bounded).Truthful error finish) world := by
  have reports : (transaction.logbook crates host bounded).Reports host weather
      (Commit.commitJournaled crates transaction) Logbook.Begun _ :=
    Logbook.commitJournaled_reports rfl (fun _ => trivial) steady
  refine consume_meets ((reports transaction.journal world session).mono
    fun result finish ended error same => ?_)
  obtain ⟨found | report, after⟩ := result
  · cases same
    exact ended
  · cases same

theorem commitRetained_tells (retention : UndoRetention)
    (steady : ∀ path ∈ transaction.paths,
      (transaction.logbook crates host bounded).Apart host path ∧ Logbook.Staged path)
    (sound : Undo.Sound crates host transaction.control transaction.options world)
    (countable : Undo.Countable transaction)
    (session : (transaction.logbook crates host bounded).Session Logbook.Begun
      transaction.journal world) :
    (transaction.commitRetained crates retention).run.Meets
      ((transaction.logbook crates host bounded).careful host weather) (fun _ _ => True)
      (fun result finish => ∀ error, result = .error error →
        (transaction.logbook crates host bounded).Truthful error finish) world :=
  consume_meets (Logbook.commitRetainedJournaled_meets retention rfl (fun _ => trivial) steady
    sound countable session)

end

namespace PreparedHere

variable {records : List Record} {world : World}

theorem session (prepared : PreparedHere crates host transaction records world) :
    (transaction.logbook crates host prepared.bounded).Session Logbook.Begun transaction.journal
      world :=
  ⟨records, trivial, .inl ⟨prepared.journal, prepared.begun⟩⟩

theorem steady (prepared : PreparedHere crates host transaction records world) :
    ∀ path ∈ transaction.paths,
      (transaction.logbook crates host prepared.bounded).Apart host path ∧ Logbook.Staged path :=
  fun path among => ⟨prepared.apart path among, prepared.staged path among⟩

end PreparedHere

/-- In a run without mishaps the error of a failed commit, with or without
retained evidence, asks for a recovery exactly when the journal is still there. -/
theorem commit_truthful {records : List Record} {world : World}
    (prepared : PreparedHere crates host transaction records world) :
    (∀ result finish, (transaction.commit crates).run.Returns
        ((transaction.logbook crates host prepared.bounded).careful host weather) world result
        finish →
      ∀ error, result = .error error →
        (transaction.logbook crates host prepared.bounded).Truthful error finish) ∧
    (Undo.Sound crates host transaction.control transaction.options world →
      ∀ retention result finish, (transaction.commitRetained crates retention).run.Returns
          ((transaction.logbook crates host prepared.bounded).careful host weather) world result
          finish →
        ∀ error, result = .error error →
          (transaction.logbook crates host prepared.bounded).Truthful error finish) := by
  constructor
  · intro result finish returned
    exact (commit_tells prepared.steady prepared.session).returns returned
  · intro sound retention result finish returned
    exact (commitRetained_tells retention prepared.steady sound prepared.countable
      prepared.session).returns returned

end

/-! ### A synchronization that fails -/

section Creation

private def creationId : String := "0123456789abcdef0123456789abcdef"

private def createdEvidence : PresentEvidence :=
  ⟨Sha256.digest [120], 1, ⟨0, 5⟩, .fromPermissions 0o644⟩

private def createdPath : StagedPath :=
  { stableIndex := 0
    path := "a"
    access := ⟨0, "a", "a", 0, ⟨0, 0⟩⟩
    before := .absent
    after := .present createdEvidence
    backup := none
    stageName := some (artifactName creationId 0 "stage")
    backupName := none }

private def createdChange : OperationChange :=
  ⟨.create, none, some "a", none, some (Sha256.digest [120]), 0, 1, 0⟩

/-- The records of preparing to create one file. -/
def creationRecords : List Record :=
  [.header creationId (Sha256.digest (utf8 "create a")).display "create a" 1 1,
    .operation 0 "CREATE" none (some "a") none (some (Sha256.digest [120]).display) 0 1 0,
    .pathIntent 0 "a" .absent
      (.present (Sha256.digest [120]).display 1 (.fromPermissions 0o644) none)
      createdPath.stageName none,
    .pathStaged 0 (some ⟨0, 5⟩) none,
    .prepared 1 1]

def creation : PreparedWorktreeTransaction :=
  { transactionId := creationId
    contractHash := Sha256.digest (utf8 "create a")
    operation := "create a"
    preview := ⟨"create a", [createdChange], 1⟩
    operations := [createdChange]
    paths := [createdPath]
    options := plainOptions
    root := ⟨0, 0⟩
    journal :=
      { file := 4
        schema := .v3
        nextSeq := 5
        bytes := linesCost plainCrates .v3 0 creationRecords
        maxBytes := plainOptions.limits.maxJournalBytes
        poisoned := false }
    control := ⟨2, 0⟩
    lock := 3 }

/-- The file `a` is to be created from its stage; the journal is prepared. -/
def creationWorld : World :=
  { World.tree [(⟨0, ".weavatrix"⟩, 1), (⟨1, "worktree"⟩, 2), (⟨2, "lock"⟩, 3),
      (⟨2, operationJournal⟩, 4), (⟨0, artifactName creationId 0 "stage"⟩, 5)]
      fun ino =>
        if ino ≤ 2 then ⟨.directory, 0, [], 0o755⟩
        else if ino = 4 then ⟨.file, 0, linesFrom plainCrates .v3 0 creationRecords, 0o644⟩
        else if ino = 5 then ⟨.file, 0, [120], 0o644⟩
        else ⟨.file, 0, [], 0o644⟩ with
    locks := [3] }

theorem creation_prepared :
    PreparedHere plainCrates .plain creation creationRecords creationWorld := by
  have bounded : creation.journal.maxBytes < u64Max := by decide +kernel
  have shows : creationWorld.look ⟨2, operationJournal⟩ =
      some ⟨4, ⟨.file, 0, linesFrom plainCrates .v3 0 creationRecords, 0o644⟩, 1⟩ := by
    rw [World.look_eq_some_iff]
    exact ⟨by decide +kernel, by rfl⟩
  have foreign : hasPrefix operationJournal artifactPrefix = false ∧
      hasPrefix operationJournal undoPrefix = false := by decide +kernel
  have fits : linesCost plainCrates .v3 0 creationRecords ≤ creation.journal.maxBytes := by
    decide +kernel
  have other : createdEvidence.identity.inode ≠ creation.journal.file := by decide
  refine ⟨bounded, ⟨⟨_, shows, ⟨rfl, foreign.1, foreign.2⟩, rfl, rfl, rfl⟩, rfl, ?_, fits⟩,
    List.cons_ne_nil _ _, ?_, ?_, ⟨0, rfl⟩⟩
  · simp [Ordered, creationRecords, Record.isHeader]
  · intro path among
    cases List.mem_singleton.mp among
    refine ⟨fun evidence impossible => ?_, fun evidence shown => ?_⟩
    · cases impossible
    · cases shown
      exact other
  · intro path among evidence shown
    cases List.mem_singleton.mp among
    exact ⟨_, rfl⟩

theorem creation_sound :
    Undo.Sound plainCrates .plain creation.control creation.options creationWorld := by
  have unlisted : Undo.listedIds creationWorld creation.control.dir = [] := by decide +kernel
  refine ⟨by rw [unlisted]; decide, by decide, fun _ => Undo.createdReceipt, ?_, ?_⟩
  · intro id listed
    rw [unlisted] at listed
    cases listed
  · rw [unlisted]
    decide

/-- A commit of it that fails without a mishap says the truth, with and without evidence
of it. -/
theorem commit_truthful_creation :
    PreparedHere plainCrates .plain creation creationRecords creationWorld ∧
    (∀ result finish, (creation.commit plainCrates).run.Returns
        ((creation.logbook plainCrates .plain creation_prepared.bounded).careful .plain .stormy)
        creationWorld result finish →
      ∀ error, result = .error error →
        (creation.logbook plainCrates .plain creation_prepared.bounded).Truthful error finish) ∧
    ∀ result finish, (creation.commitRetained plainCrates .default).run.Returns
        ((creation.logbook plainCrates .plain creation_prepared.bounded).careful .plain .stormy)
        creationWorld result finish →
      ∀ error, result = .error error →
        (creation.logbook plainCrates .plain creation_prepared.bounded).Truthful error finish :=
  ⟨creation_prepared, (commit_truthful creation_prepared).1,
    (commit_truthful creation_prepared).2 creation_sound .default⟩

private def syncLost : Except WorktreeError WorktreeApplyReport × World :=
  runFailing .plain ⟨.other, "Input/output error"⟩ 37 (creation.commit plainCrates).run
    creationWorld

/-- The last synchronization of the directory fails after `a` was created: the commit
is rolled back and its journal removed, and the error still asks for a recovery. -/
theorem syncLost_flagged :
    ∃ error finish, (creation.commit plainCrates).run.Returns (fsMachine .plain .stormy)
        creationWorld (.error error) finish ∧
      error.recoveryRequired = true ∧ finish.look ⟨0, "a"⟩ = none ∧
      ¬ (creation.logbook plainCrates .plain creation_prepared.bounded).Truthful error finish := by
  have returned : (creation.commit plainCrates).run.Returns (fsMachine .plain .stormy)
      creationWorld syncLost.1 syncLost.2 :=
    returns_runFailing trivial trivial (by decide) 37 _ creationWorld
  have ended : (match syncLost.1 with
      | .ok _ => false
      | .error error => error.recoveryRequired) = true ∧
      syncLost.2.table.lookup ⟨0, "a"⟩ = none ∧
      syncLost.2.table.lookup ⟨2, operationJournal⟩ = none := by
    decide +kernel
  obtain ⟨flagged, absent, gone⟩ := ended
  rw [← World.look_eq_none_iff] at absent gone
  cases failed : syncLost.1 with
  | ok report =>
      rw [failed] at flagged
      cases flagged
  | error error =>
      rw [failed] at flagged returned
      refine ⟨error, syncLost.2, returned, flagged, absent, fun truthful => ?_⟩
      have left := truthful.mp flagged
      change (syncLost.2.look ⟨2, operationJournal⟩).isSome = true at left
      rw [gone] at left
      cases left

end Creation

end Worktree
