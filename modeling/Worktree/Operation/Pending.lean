import Worktree.Operation.Recovering
/-
A recovery while its journal is on disk.

The journal is found where it was created, its records are replayed, and at each
point of the run, whatever fails, its records are safe or it is gone.
-/

namespace Worktree

open CrashLogic

namespace Logbook

variable {T : Type} {crates : Crates T} {book : Logbook crates} {host : Host} {weather : Weather}
  {mayRefuse : Prop} {options : WorktreeOptions} {records : List Record} {world : World}
  {α ε : Type}

/-! ### A journal at rest -/

theorem Logged.recorded (logged : book.Logged records world) (safe : book.safe records) :
    book.Recorded world :=
  .inr ⟨records, safe, logged⟩

/-- A program that keeps away from the journal leaves its records. -/
theorem Skirts.meets {program : ExceptT ε (Task FsOp) α} {good : α → Prop}
    (skirts : book.Skirts host weather program good) (safe : book.safe records)
    (logged : book.Logged records world) :
    program.run.Meets (fsMachine host weather) (book.Cautious host weather mayRefuse)
      (fun result finish => book.Logged records finish ∧
        ∀ value, result = .ok value → good value) world := by
  obtain ⟨seen, tail, shows, reserved, ino, _⟩ := logged.seen
  have kept : ∀ here : World, here.look book.slot = some seen → book.Logged records here :=
    fun here same => logged.congr (same.trans shows.symm)
  have recorded : ∀ here : World, here.look book.slot = some seen → book.Recorded here :=
    fun here same => (kept here same).recorded safe
  refine (Task.Upholds.meets (skirts seen ino reserved)
    (spares_maintains host weather book.slot seen reserved.single) shows
    (fun here same => admits_cautious (recorded here same))
    (grants_cautious reserved recorded)).mono fun result finish ended => ?_
  exact ⟨kept finish ended.1, ended.2⟩

theorem removal_meets (control : ControlDir) (wrap : IoError → WorktreeError)
    (safe : book.safe records) (logged : book.Logged records world) :
    (orElse control.removeOperationJournal wrap).run.Meets (fsMachine host weather)
      (book.Cautious host weather mayRefuse) (fun _ finish => book.Recorded finish) world := by
  obtain ⟨seen, _, shows, reserved, _⟩ := logged.seen
  have came : ∀ finish : World, finish.look book.slot = world.look book.slot ∨
      finish.look book.slot = none → book.Recorded finish := by
    rintro finish (same | gone)
    · exact (logged.congr same).recorded safe
    · exact .inl gone
  unfold orElse
  rw [Task.meets_except_adapt]
  refine (removeOperationJournal_meets control shows reserved.single
    (fun here moved => admits_cautious (came here moved)) fun name => ?_).mono
    fun result finish moved => came finish moved
  exact ⟨logged.recorded safe, fun _ => False.elim⟩

/-! ### The paths and the artifacts -/

/-- Every journal of safe records that has not ended can be resumed. -/
structure Resumable (book : Logbook crates) (mayRefuse : Prop) : Prop where
  current : book.schema = .current
  foreign : ∀ records, book.safe records → ∀ index identity backup,
    .pathStaged index (some identity) backup ∈ records → identity.inode ≠ book.file
  resumes : ∀ (records : List Record) (parsed : ParsedJournal), book.safe records →
    parsed.Tells records.tail → parsed.finished = none →
    ∃ inv, inv 0 records ∧ book.Resumes mayRefuse parsed inv

theorem retainedReceipt_skirts (control : ControlDir) (transactionId : String) :
    book.Skirts host weather
      (Recovery.retainedReceipt crates control transactionId options) fun _ => True := by
  unfold Recovery.retainedReceipt
  refine skirts_ite (fun _ => skirts_pure _ trivial) fun _ => ?_
  exact skirts_reads (Task.yields_adapt (readExact_reads control transactionId options))

theorem settle_meets {parsed : ParsedJournal} (control : ControlDir) (root : FsRoot)
    (action : RecoveryAction) (safe : book.safe records) (logged : book.Logged records world) :
    (Recovery.settle crates control root options parsed action).run.Meets (fsMachine host weather)
      (book.Cautious host weather mayRefuse) (fun _ finish => book.Recorded finish) world := by
  unfold Recovery.settle
  rw [Task.meets_except_bind]
  refine ((retainedReceipt_skirts control _).meets safe logged).mono ?_
  rintro retained here ⟨logged, _⟩
  cases retained with
  | error error => exact logged.recorded safe
  | ok retained =>
      dsimp only
      rw [Task.meets_except_bind]
      refine ((cleanupArtifacts_skirts _ _).meets safe logged).mono ?_
      rintro removed here ⟨logged, _⟩
      cases removed with
      | error error => exact logged.recorded safe
      | ok removed =>
          have gone : ∀ here, book.Logged records here →
              (do
                Recovery.removeJournal control parsed.transactionId
                return removed : Action Nat).run.Meets (fsMachine host weather)
                (book.Cautious host weather mayRefuse) (fun _ finish => book.Recorded finish)
                here := by
            intro here logged
            rw [Task.meets_except_bind]
            refine (removal_meets control _ safe logged).mono fun result finish recorded => ?_
            cases result with
            | error error => exact recorded
            | ok value => exact recorded
          have after : ∀ (program : Action Unit), book.Skirts host weather program (fun _ => True) →
              (do
                program
                Recovery.removeJournal control parsed.transactionId
                return removed : Action Nat).run.Meets (fsMachine host weather)
                (book.Cautious host weather mayRefuse) (fun _ finish => book.Recorded finish)
                here := by
            intro program skirts
            rw [Task.meets_except_bind]
            refine (skirts.meets safe logged).mono ?_
            rintro result finish ⟨logged, _⟩
            cases result with
            | error error => exact logged.recorded safe
            | ok value => exact gone finish logged
          dsimp only
          split
          · split
            · exact after _ (relocateBackups_skirts control root _)
            · exact after _ (skirts_orElse fun _ _ reserved =>
                ControlDir.removeUndoReceipt_bypasses reserved _)
          · exact after (pure ()) (skirts_pure _ trivial)

/-! ### The run of a recovery -/

theorem readEntries_skirts {seen : Seen} (logged : book.Logged records world)
    (shows : world.look book.slot = some seen)
    (limit : options.limits.maxJournalBytes = book.maxBytes) :
    Task.Yields (fsMachine host weather) (Spares host book.slot seen.ino)
      (fun here => here.look book.slot = some seen)
      (Recovery.readEntries crates book.file options) fun entries =>
        entries = entriesFrom 0 records := by
  obtain ⟨there, tail, shows', _, ino, unfinished, bytes, short⟩ := logged.seen
  rw [shows] at shows'
  cases shows'
  unfold Recovery.readEntries
  rw [limit]
  exact Task.yields_adapt (read_yields ino unfinished bytes short logged.ordered rfl)

/-- The entries that are read are those of the journal, which stays as it is. -/
theorem readEntries_meets (limit : options.limits.maxJournalBytes = book.maxBytes)
    (safe : book.safe records) (logged : book.Logged records world) :
    (Recovery.readEntries crates book.file options).run.Meets (fsMachine host weather)
      (book.Cautious host weather mayRefuse)
      (fun result finish => book.Logged records finish ∧
        ∀ entries, result = .ok entries → entries = entriesFrom 0 records) world := by
  obtain ⟨seen, _, shows, reserved, ino, _⟩ := logged.seen
  have kept : ∀ here : World, here.look book.slot = some seen → book.Logged records here :=
    fun here same => logged.congr (same.trans shows.symm)
  have recorded : ∀ here : World, here.look book.slot = some seen → book.Recorded here :=
    fun here same => (kept here same).recorded safe
  refine (Task.Upholds.meets (readEntries_skirts logged shows limit)
    (spares_maintains host weather book.slot seen reserved.single) shows
    (fun here same => admits_cautious (recorded here same))
    (grants_cautious reserved recorded)).mono fun result finish ended => ?_
  exact ⟨kept finish ended.1, ended.2⟩

theorem entriesFrom_tail (records : List Record) :
    ((entriesFrom 0 records).tail.map Entry.record) = records.tail := by
  cases records with
  | nil => rfl
  | cons record rest => exact entriesFrom_records 1 rest

theorem recoverState_meets {parsed : ParsedJournal} (resumable : book.Resumable mayRefuse)
    (safe : book.safe records) (tells : parsed.Tells records.tail) {writer : Writer}
    (inStep : book.InStep records writer world) :
    ((Recovery.recoverState crates options parsed).run.run writer).Meets (fsMachine host weather)
      (book.Cautious host weather mayRefuse)
      (fun result finish => match result with
        | (.ok _, _) => ∃ records, book.safe records ∧ book.Logged records finish
        | (.error _, _) => book.Recorded finish) world := by
  have foreign : ∀ path ∈ parsed.paths, path.index ∈ parsed.commitIntents →
      book.Foreign path := by
    intro path among announced
    have prepared := tells.ready (Finset.ne_empty_of_mem announced)
    refine ⟨(tells.staged prepared path among).2.stage, fun identity known => ?_⟩
    obtain ⟨index, backup, journaled⟩ := tells.identified path among identity known
    exact resumable.foreign records safe index identity backup (List.mem_of_mem_tail journaled)
  have opens : ∃ pre, pre records ∧ book.Opens (fsMachine host weather)
      (book.Cautious host weather mayRefuse) (Recovery.recoverState crates options parsed) pre
      fun _ _ => True := by
    by_cases unfinished : parsed.finished = none
    · obtain ⟨inv, starts, resumes⟩ := resumable.resumes records parsed safe tells unfinished
      exact ⟨inv 0, starts, recoverState_opens resumes tells unfinished foreign⟩
    · exact ⟨fun _ => True, trivial, recoverState_ended_opens unfinished⟩
  obtain ⟨pre, starts, opens⟩ := opens
  refine (opens writer world ⟨records, safe, .inl ⟨inStep, starts⟩⟩).mono
    fun result finish ended => ?_
  obtain ⟨value | error, after⟩ := result
  · exact ended
  · obtain ⟨last, safe, inStep | poisoned⟩ := ended
    · exact ⟨last, safe, inStep.1.logged⟩
    · exact ⟨last, safe, poisoned.2⟩

theorem recoverOperation_meets (resumable : book.Resumable mayRefuse) (control : ControlDir)
    (root : FsRoot) (limit : options.limits.maxJournalBytes = book.maxBytes)
    (safe : book.safe records) (logged : book.Logged records world) :
    (Recovery.recoverOperation crates control root book.file options).run.Meets
      (fsMachine host weather) (book.Cautious host weather mayRefuse)
      (fun _ finish => book.Recorded finish) world := by
  unfold Recovery.recoverOperation
  rw [Task.meets_except_bind]
  refine (readEntries_meets limit safe logged).mono ?_
  rintro entries here ⟨logged, same⟩
  cases entries with
  | error error => exact logged.recorded safe
  | ok entries =>
      have found := same entries rfl
      subst found
      dsimp only
      split
      · rw [Task.meets_except_bind]
        refine (removal_meets control _ safe logged).mono fun result finish ended => ?_
        cases result with
        | error error => exact ended
        | ok value => exact ended
      · rw [Task.meets_except_bind]
        refine ((skirts_reads (parseJournal_reads root _ options)).meets safe logged).mono ?_
        rintro parsed here ⟨logged, told⟩
        cases parsed with
        | error error => exact logged.recorded safe
        | ok parsed =>
            have tells := told parsed rfl
            rw [entriesFrom_tail] at tells
            dsimp only
            rw [Task.meets_except_bind]
            unfold Recovery.resume orJournal
            rw [Task.meets_except_adapt, limit]
            refine (resume_meets resumable.current safe logged).mono fun result here ended => ?_
            cases result with
            | error error =>
                have still : book.Logged records here := ended
                exact still.recorded safe
            | ok writer =>
                dsimp only [Except.mapError]
                rw [Task.meets_except_bind, Task.meets_except_lift]
                refine (recoverState_meets resumable safe tells ended).mono
                  fun result here ended => ?_
                obtain ⟨error | action, after⟩ := result
                · exact ended
                · obtain ⟨last, safe, logged⟩ := ended
                  dsimp only
                  rw [Task.meets_except_bind]
                  change Task.Meets _ _ (ExceptT.run (do
                    let removed ← Recovery.settle crates control root options parsed action
                    return ⟨some parsed.transactionId, action, [], removed⟩ :
                    Action RecoveryReport)) _ here
                  rw [Task.meets_except_bind]
                  refine (settle_meets control root action safe logged).mono
                    fun result finish ended => ?_
                  cases result with
                  | error error => exact ended
                  | ok value => exact ended

/-- The journal of this root is this one. -/
structure Located (book : Logbook crates) (host : Host) (root : FsRoot) (dir : Ino)
    (options : WorktreeOptions) : Prop where
  slot : book.slot = host.slot dir operationJournal
  limit : options.limits.maxJournalBytes = book.maxBytes

/-- The journal that is opened is this one. -/
theorem openOperationJournal_meets {dir : Ino} {root : FsRoot} {wrap : IoError → WorktreeError}
    (located : book.Located host root dir options) (safe : book.safe records)
    (logged : book.Logged records world) :
    (orElse (ControlDir.openOperationJournal ⟨dir, root.device⟩) wrap).run.Meets
      (fsMachine host weather) (book.Cautious host weather mayRefuse)
      (fun result finish => book.Logged records finish ∧
        ∀ value, result = .ok value → value = some book.file) world := by
  obtain ⟨_, _, _, there, shows, reserved, ino, kind, _⟩ := logged.stores
  have kept : ∀ here : World, here.look book.slot = some there → book.Logged records here :=
    fun here same => logged.congr (same.trans shows.symm)
  have recorded : ∀ here : World, here.look book.slot = some there → book.Recorded here :=
    fun here same => (kept here same).recorded safe
  have finds : Task.Yields (fsMachine host weather) (Spares host book.slot there.ino)
      (fun here => here.look book.slot = some there)
      (ControlDir.openOperationJournal ⟨dir, root.device⟩) fun found => found = some book.file := by
    refine ControlDir.openOperationJournal_finds fun here same => ⟨there, ?_, ino, kind⟩
    rw [← located.slot]
    exact same
  refine (Task.Upholds.meets (Task.yields_adapt finds)
    (spares_maintains host weather book.slot there reserved.single) shows
    (fun here same => admits_cautious (recorded here same))
    (grants_cautious reserved recorded)).mono fun result finish ended => ?_
  exact ⟨kept finish ended.1, ended.2⟩

/-- Whatever the journal holds, as long as its recovery leaves it safe. -/
theorem recoverLocked_runs {dir : Ino} (root : FsRoot)
    (located : book.Located host root dir options) (safe : book.safe records)
    (logged : book.Logged records world)
    (recovers : ∀ here, book.Logged records here →
      (Recovery.recoverOperation crates ⟨dir, root.device⟩ root book.file options).run.Meets
        (fsMachine host weather) (book.Cautious host weather mayRefuse)
        (fun _ finish => book.Recorded finish) here) :
    (Recovery.recoverLocked crates ⟨dir, root.device⟩ root options).run.Meets
      (fsMachine host weather) (book.Cautious host weather mayRefuse)
      (fun _ finish => book.Recorded finish) world := by
  unfold Recovery.recoverLocked
  rw [Task.meets_except_bind]
  refine ((skirts_orElse (skirts_reads (ControlDir.openNamedJournal_reads _))).meets safe
    logged).mono ?_
  rintro legacy here ⟨logged, _⟩
  cases legacy with
  | error error => exact logged.recorded safe
  | ok legacy =>
      dsimp only
      rw [Task.meets_except_bind]
      refine (openOperationJournal_meets located safe logged).mono ?_
      rintro operation here ⟨logged, found⟩
      cases operation with
      | error error => exact logged.recorded safe
      | ok operation =>
          have same := found operation rfl
          subst same
          dsimp only
          rw [Task.meets_except_bind]
          refine ((skirts_orElse (skirts_reads (ControlDir.openNamedJournal_reads _))).meets safe
            logged).mono ?_
          rintro undo here ⟨logged, _⟩
          cases undo with
          | error error => exact logged.recorded safe
          | ok undo =>
              dsimp only
              split
              · exact logged.recorded safe
              · next alone =>
                  cases undo with
                  | some file => cases legacy <;> exact absurd (by simp) alone
                  | none =>
                      rw [Task.meets_except_bind]
                      refine (recovers _ logged).mono fun result finish ended => ?_
                      cases result with
                      | error error => exact ended
                      | ok value => exact ended

/-- The lock is taken in the directory of the journal. -/
theorem acquire_meets {dir : Ino} {root : FsRoot}
    (safe : book.safe records) (logged : book.Logged records world)
    (controls : FsRoot.Controls host root dir world) :
    (Recovery.acquire root).run.Meets (fsMachine host weather)
      (book.Cautious host weather mayRefuse)
      (fun result finish => book.Logged records finish ∧
        ∀ locked, result = .ok (some locked) → locked.control = ⟨dir, root.device⟩) world := by
  obtain ⟨_, _, _, there, shows, reserved, ino, kind, _⟩ := logged.stores
  obtain ⟨outer, first, second⟩ := controls
  have kept : ∀ here : World, here.look book.slot = some there → book.Logged records here :=
    fun here same => logged.congr (same.trans shows.symm)
  have recorded : ∀ here : World, here.look book.slot = some there → book.Recorded here :=
    fun here same => (kept here same).recorded safe
  have maintains := ((spares_maintains host weather book.slot there reserved.single).and
    (World.leads_maintains host weather (host.slot root.dir ".weavatrix") outer)).and
    (World.leads_maintains host weather (host.slot outer "worktree") dir)
  have finds : Task.Yields (fsMachine host weather) (Spares host book.slot there.ino)
      (fun here => (here.look book.slot = some there ∧
        here.Leads (host.slot root.dir ".weavatrix") outer) ∧
        here.Leads (host.slot outer "worktree") dir)
      (Recovery.acquire root) fun found => ∀ locked, found = some locked →
        locked.control = ⟨dir, root.device⟩ := by
    unfold Recovery.acquire
    refine Task.Yields.bind (Task.yields_adapt (FsRoot.openControl_finds
      (fun _ knows => knows.1.2) fun _ knows => knows.2)) fun control same => ?_
    subst same
    refine Task.Yields.bind (Task.yields_adapt (yields_call trivial)) fun file _ => ?_
    have tried : Task.Yields (fsMachine host weather) (Spares host book.slot there.ino)
        (fun here => (here.look book.slot = some there ∧
          here.Leads (host.slot root.dir ".weavatrix") outer) ∧
          here.Leads (host.slot outer "worktree") dir)
        (ExceptT.lift (perform (.tryLock file)).run : Action (Except IoError Bool))
        fun _ => True :=
      Task.yields_lift (Task.Upholds.mono (yields_call trivial) fun _ _ => trivial)
    refine Task.Yields.bind tried fun result _ => ?_
    rcases result with error | taken
    · exact Task.yields_throw _
    · cases taken with
      | false => exact Task.yields_throw _
      | true =>
          refine Task.yields_pure _ fun locked same => ?_
          cases same
          rfl
  refine (Task.Upholds.meets finds maintains ⟨⟨shows, first⟩, second⟩
    (fun here knows => admits_cautious (recorded here knows.1.1)) fun op here spares knows =>
      grants_cautious reserved recorded op here spares knows.1.1).mono fun result finish ended => ?_
  exact ⟨kept finish ended.1.1.1, fun locked same => ended.2 _ same locked rfl⟩

theorem recover_runs {dir : Ino} {root : FsRoot} (located : book.Located host root dir options)
    (controls : FsRoot.Controls host root dir world) (safe : book.safe records)
    (logged : book.Logged records world)
    (recovers : ∀ here, book.Logged records here →
      (Recovery.recoverOperation crates ⟨dir, root.device⟩ root book.file options).run.Meets
        (fsMachine host weather) (book.Cautious host weather mayRefuse)
        (fun _ finish => book.Recorded finish) here) :
    (recoverOperationTransaction crates root options).run.Meets (fsMachine host weather)
      (book.Cautious host weather mayRefuse) (fun _ finish => book.Recorded finish) world := by
  unfold recoverOperationTransaction
  rw [Task.meets_except_bind]
  refine (acquire_meets safe logged controls).mono ?_
  rintro result here ⟨logged, found⟩
  cases result with
  | error error => exact logged.recorded safe
  | ok locked =>
      cases locked with
      | none => exact logged.recorded safe
      | some locked =>
          have control := found locked rfl
          dsimp only
          unfold holding
          rw [control]
          change Task.Meets _ _ (do
            let result ← (Recovery.recoverLocked crates ⟨dir, root.device⟩ root options).run
            Task.perform (.unlock locked.file)
            return result) _ here
          rw [Task.meets_bind]
          refine (recoverLocked_runs root located safe logged recovers).mono
            fun result here recorded => ?_
          rw [Task.meets_bind, Task.meets_perform]
          refine ⟨⟨recorded, fun _ => False.elim⟩, ?_⟩
          rintro answer finish rfl
          exact recorded.congr rfl

/-- At each point of a recovery its journal holds safe records or is gone. -/
theorem recover_meets {dir : Ino} {root : FsRoot} (resumable : book.Resumable mayRefuse)
    (located : book.Located host root dir options) (controls : FsRoot.Controls host root dir world)
    (safe : book.safe records) (logged : book.Logged records world) :
    (recoverOperationTransaction crates root options).run.Meets (fsMachine host weather)
      (book.Cautious host weather mayRefuse) (fun _ finish => book.Recorded finish) world :=
  recover_runs located controls safe logged fun _ logged =>
    recoverOperation_meets resumable _ root located.limit safe logged

/-- A journal without a header is removed, or left as it is. -/
theorem recoverOperation_empty (control : ControlDir) (root : FsRoot)
    (limit : options.limits.maxJournalBytes = book.maxBytes) (safe : book.safe [])
    (logged : book.Logged [] world) :
    (Recovery.recoverOperation crates control root book.file options).run.Meets
      (fsMachine host weather) (book.Cautious host weather mayRefuse)
      (fun _ finish => book.Recorded finish) world := by
  unfold Recovery.recoverOperation
  rw [Task.meets_except_bind]
  refine (readEntries_meets limit safe logged).mono ?_
  rintro entries here ⟨logged, same⟩
  cases entries with
  | error error => exact logged.recorded safe
  | ok entries =>
      have found : entries = [] := same entries rfl
      subst found
      dsimp only
      rw [if_pos rfl, Task.meets_except_bind]
      refine (removal_meets control _ safe logged).mono fun result finish ended => ?_
      cases result with
      | error error => exact ended
      | ok value => exact ended

end Logbook

end Worktree
