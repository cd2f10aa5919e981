import Worktree.Operation.Commit
import Worktree.Undo.Retained
import Worktree.Journal.Resuming
/-
The steps of a commit keep away from the journal.

A path that is to be replaced or removed was there before the journal, and what
it is replaced by was staged beside it, so neither is the journal itself.
-/

namespace Worktree

open CrashLogic

namespace Logbook

variable {T : Type} {crates : Crates T} {book : Logbook crates} {host : Host} {weather : Weather}
  {α β ε ε' : Type}

/-! ### Composing -/

theorem Skirts.mono {program : ExceptT ε (Task FsOp) α} {good good' : α → Prop}
    (skirts : book.Skirts host weather program good) (better : ∀ value, good value → good' value) :
    book.Skirts host weather program good' :=
  fun seen ino reserved => (skirts seen ino reserved).mono better

theorem Skirts.any {program : ExceptT ε (Task FsOp) α} {good : α → Prop}
    (skirts : book.Skirts host weather program good) :
    book.Skirts host weather program fun _ => True :=
  skirts.mono fun _ _ => trivial

theorem Skirts.bind {program : ExceptT ε (Task FsOp) α} {after : α → ExceptT ε (Task FsOp) β}
    {good : α → Prop} {good' : β → Prop} (first : book.Skirts host weather program good)
    (second : ∀ value, good value → book.Skirts host weather (after value) good') :
    book.Skirts host weather (program >>= after) good' :=
  fun seen ino reserved => (first seen ino reserved).bind fun value holds =>
    second value holds seen ino reserved

theorem skirts_pure {good : α → Prop} (value : α) (holds : good value) :
    book.Skirts host weather (pure value : ExceptT ε (Task FsOp) α) good :=
  fun _ _ _ => Task.yields_pure value holds

theorem skirts_throw {good : α → Prop} (error : ε) :
    book.Skirts host weather (throw error : ExceptT ε (Task FsOp) α) good :=
  fun _ _ _ => Task.yields_throw error

theorem skirts_result {result : Except ε α} :
    book.Skirts host weather (ExceptT.mk (pure result) : ExceptT ε (Task FsOp) α)
      fun value => result = .ok value :=
  fun _ _ _ => Task.yields_result result fun _ => id

theorem skirts_liftWorktree {result : Except WorktreeError α} :
    book.Skirts host weather (liftWorktree result) fun value => result = .ok value :=
  skirts_result

theorem skirts_orElse {program : Io α} {wrap : IoError → WorktreeError} {good : α → Prop}
    (skirts : book.Skirts host weather program good) :
    book.Skirts host weather (orElse program wrap) good :=
  fun seen ino reserved => Task.yields_adapt (skirts seen ino reserved)

theorem skirts_attempt {program : ExceptT ε (Task FsOp) α} {good : α → Prop}
    (skirts : book.Skirts host weather program good) :
    book.Skirts host weather (ExceptT.lift program.run : ExceptT ε' (Task FsOp) (Except ε α))
      fun result => ∀ value, result = .ok value → good value :=
  fun seen ino reserved => Task.yields_lift (skirts seen ino reserved)

theorem skirts_forM {items : List β} {body : β → ExceptT ε (Task FsOp) PUnit}
    (round : ∀ item ∈ items, book.Skirts host weather (body item) fun _ => True) :
    book.Skirts host weather (items.forM body) fun _ => True :=
  fun seen ino reserved => Task.yields_forM fun item among => round item among seen ino reserved

theorem skirts_ite {condition : Prop} [Decidable condition]
    {first second : ExceptT ε (Task FsOp) α} {good : α → Prop}
    (yes : condition → book.Skirts host weather first good)
    (no : ¬ condition → book.Skirts host weather second good) :
    book.Skirts host weather (if condition then first else second) good :=
  fun seen ino reserved => yields_ite (fun holds => yes holds seen ino reserved)
    fun fails => no fails seen ino reserved

theorem skirts_check {condition : Prop} [Decidable condition] {error : ε}
    {next : PUnit → ExceptT ε (Task FsOp) α} {good : α → Prop}
    (passed : ¬ condition → book.Skirts host weather (next ⟨⟩) good) :
    book.Skirts host weather (if condition then throw error >>= next else next ⟨⟩) good :=
  skirts_ite (fun _ => skirts_throw error) passed

/-! ### Artifacts -/

theorem removeArtifact_skirts (access : TargetAccess) (name : String) :
    book.Skirts host weather (access.removeArtifact name) fun _ => True :=
  fun _ _ reserved => TargetAccess.removeArtifact_bypasses reserved

theorem cleanupPath_skirts (index : Nat) (path : StagedPath) (artifacts : List String) :
    book.Skirts host weather (cleanupPath index path artifacts) fun _ => True := by
  induction artifacts with
  | nil => exact skirts_pure _ trivial
  | cons artifact rest ih =>
      unfold cleanupPath
      refine Skirts.bind (skirts_orElse (removeArtifact_skirts _ _)) fun removed _ => ?_
      exact ih.bind fun _ _ => skirts_pure _ trivial

theorem cleanupFrom_skirts (index : Nat) (paths : List StagedPath) :
    book.Skirts host weather (cleanupFrom index paths) fun _ => True := by
  induction paths generalizing index with
  | nil => exact skirts_pure _ trivial
  | cons path rest ih =>
      unfold cleanupFrom
      refine Skirts.bind (cleanupPath_skirts index path _) fun removed _ => ?_
      exact (ih (index + 1)).bind fun _ _ => skirts_pure _ trivial

theorem cleanup_skirts (paths : List StagedPath) :
    book.Skirts host weather (cleanup paths) fun _ => True :=
  cleanupFrom_skirts 0 paths

/-! ### One path of a commit -/

/-- Neither the path nor what was staged for it is the journal. -/
structure Apart (book : Logbook crates) (host : Host) (path : StagedPath) : Prop where
  present : ∀ evidence, path.before = .present evidence → path.access.slot host ≠ book.slot
  staged : ∀ evidence, path.after = .present evidence → evidence.identity.inode ≠ book.file

variable {transaction : PreparedWorktreeTransaction} {path : StagedPath}

theorem identity_ne {identity : FileIdentity} {seen : Seen} (ino : seen.ino = book.file)
    (foreign : identity.inode ≠ book.file) : identity ≠ seen.identity := by
  rintro rfl
  exact foreign ino

theorem verifySlot_rests (path : StagedPath) (expected : SlotEvidence) (index : Nat)
    (message : String) :
    Reads host weather (Commit.verifySlot crates transaction path expected index message)
      fun _ => True := by
  unfold Commit.verifySlot
  refine Task.Yields.bind (Task.yields_adapt
    (TargetAccess.verifySlot_reads crates.sha256 expected _)) fun _ _ => ?_
  exact Task.yields_pure _ trivial

theorem verifySlot_skirts (path : StagedPath) (expected : SlotEvidence) (index : Nat)
    (message : String) :
    book.Skirts host weather (Commit.verifySlot crates transaction path expected index message)
      fun _ => True :=
  skirts_reads (verifySlot_rests path expected index message)

theorem verifyArtifact_rests (path : StagedPath) (name : Option String)
    (expected : Option PresentEvidence) (maxBytes index : Nat) (message : String) :
    Reads host weather (Commit.verifyArtifact crates path name expected maxBytes index message)
      fun _ => True := by
  unfold Commit.verifyArtifact
  cases name with
  | none =>
      cases expected with
      | none => exact Task.yields_pure _ trivial
      | some expected => exact Task.yields_throw _
  | some name =>
      cases expected with
      | none => exact Task.yields_throw _
      | some expected =>
          refine Task.Yields.bind (Task.yields_adapt
            (TargetAccess.artifactEvidence_reads crates.sha256 name maxBytes)) fun actual _ => ?_
          exact yields_ite (fun _ => Task.yields_pure _ trivial) fun _ => Task.yields_throw _

theorem verifyPath_rests (path : StagedPath) (index : Nat) :
    Reads host weather (Commit.verifyPath crates transaction path index) fun _ => True := by
  unfold Commit.verifyPath
  refine Task.Yields.bind (Task.yields_adapt (revalidateParent_reads _ _)) fun _ _ => ?_
  refine Task.Yields.bind (verifySlot_rests path _ index _) fun _ _ => ?_
  refine Task.Yields.bind (verifyArtifact_rests path _ _ _ index _) fun _ _ => ?_
  exact verifyArtifact_rests path _ _ _ index _

theorem verifyAll_rests :
    Reads host weather (Commit.verifyAll crates transaction) fun _ => True :=
  Task.yields_forM fun item _ => verifyPath_rests item.1 item.2

theorem verifyAll_skirts :
    book.Skirts host weather (Commit.verifyAll crates transaction) fun _ => True :=
  skirts_reads verifyAll_rests

/-- A task that only reads. -/
abbrev Rests (host : Host) (weather : Weather) (program : Task FsOp α) : Prop :=
  program.Upholds (fsMachine host weather) (fun _ => False) (fun _ => True) fun _ => True

theorem showsSlot_rests (path : StagedPath) (expected : SlotEvidence) (maxBytes : Nat) :
    Rests host weather (Commit.showsSlot crates path expected maxBytes) := by
  unfold Commit.showsSlot
  rw [Rests, Task.upholds_bind]
  exact Task.Upholds.mono (TargetAccess.verifySlot_reads crates.sha256 expected maxBytes)
    fun _ _ => trivial

theorem classifySlot_rests (path : StagedPath) :
    Rests host weather (Commit.classifySlot crates transaction path) := by
  unfold Commit.classifySlot
  rw [Rests, Task.upholds_bind]
  refine (showsSlot_rests path path.after _).mono fun after _ => ?_
  cases after with
  | true => exact trivial
  | false =>
      change Task.Upholds _ _ _ (Commit.showsSlot crates path path.before _ >>= _) _
      rw [Task.upholds_bind]
      refine (showsSlot_rests path path.before _).mono fun before _ => ?_
      cases before <;> exact trivial

theorem classify_rests (path : StagedPath) :
    Rests host weather (Commit.classify crates transaction path) := by
  unfold Commit.classify
  cases path.stageName with
  | none => exact classifySlot_rests path
  | some stage =>
      change Task.Upholds _ _ _ ((path.access.sameFileAsArtifact stage).run >>= _) _
      rw [Task.upholds_bind]
      refine Task.Upholds.mono (TargetAccess.sameFileAsArtifact_reads stage) fun result _ => ?_
      cases result with
      | ok linked =>
          cases linked with
          | true => exact trivial
          | false => exact classifySlot_rests path
      | error error =>
          change Task.Upholds _ _ _ (if error.kind = .notFound then _ else _) _
          split
          · exact classifySlot_rests path
          · exact trivial

theorem mutate_skirts (apart : book.Apart host path) :
    book.Skirts host weather (Commit.mutate crates transaction path) fun _ => True := by
  unfold Commit.mutate
  cases before : path.before with
  | absent =>
      cases path.after with
      | absent => exact skirts_throw _
      | present after =>
          refine Skirts.bind skirts_liftWorktree fun stage _ => ?_
          exact skirts_orElse fun _ _ reserved =>
            TargetAccess.installAbsentFrom_bypasses reserved
  | present evidence =>
      have other := apart.present evidence before
      cases path.after with
      | absent =>
          exact skirts_orElse fun _ _ _ =>
            TargetAccess.removeExact_bypasses crates.sha256 evidence _ (.inr other)
      | present after =>
          refine Skirts.bind skirts_liftWorktree fun stage _ => ?_
          exact skirts_orElse fun _ _ reserved =>
            TargetAccess.replaceFrom_bypasses reserved other

/-! ### Rolling one path back -/

theorem sameFileOrFalse_reads (access : TargetAccess) (artifact : Option String) :
    Reads host weather (Commit.sameFileOrFalse access artifact) fun _ => True := by
  unfold Commit.sameFileOrFalse
  cases artifact with
  | none => exact Task.yields_pure _ trivial
  | some stage =>
      refine Task.Yields.bind (Task.yields_lift (Task.Upholds.mono
        (TargetAccess.sameFileAsArtifact_reads stage) fun _ _ => trivial)) fun result _ => ?_
      cases result with
      | error error => exact Task.yields_pure _ trivial
      | ok linked => cases linked <;> exact Task.yields_pure _ trivial

theorem restoreAbsent_skirts (apart : book.Apart host path) :
    book.Skirts host weather (Commit.restoreAbsent crates transaction path) fun _ => True := by
  have synced : book.Skirts host weather (orElse path.access.syncParent
      (Commit.rollbackError path "rollback did not synchronize")) fun _ => True :=
    skirts_orElse (skirts_reads TargetAccess.syncParent_reads)
  unfold Commit.restoreAbsent
  refine Skirts.bind (skirts_reads (sameFileOrFalse_reads _ _)) fun linked _ => ?_
  cases linked with
  | some stage =>
      refine Skirts.bind (skirts_orElse fun _ _ reserved =>
        TargetAccess.rollbackLinkedInstall_bypasses reserved) fun _ _ => synced
  | none =>
      refine Skirts.bind skirts_liftWorktree fun after found => ?_
      have shown : path.after = .present after := by
        cases after' : path.after with
        | absent =>
            rw [after'] at found
            cases found
        | present evidence =>
            rw [after'] at found
            cases found
            rfl
      refine Skirts.bind (skirts_orElse fun seen ino _ =>
        TargetAccess.removeExact_bypasses crates.sha256 after _
          (.inl (identity_ne ino (apart.staged after shown)))) fun _ _ => synced

theorem restorePresent_skirts (apart : book.Apart host path) (before : PresentEvidence)
    (shown : path.before = .present before) :
    book.Skirts host weather (Commit.restorePresent crates transaction path before)
      fun _ => True := by
  have settled : ∀ (evidence : PresentEvidence), book.Skirts host weather (do
      let _ ← orElse (path.access.verifySlot crates.sha256
          (.present { before with identity := evidence.identity })
          transaction.options.limits.maxSourceBytesPerFile)
        (Commit.rollbackError path "restored backup failed verification") : Action Unit)
      fun _ => True := fun evidence =>
    Skirts.bind (skirts_orElse (skirts_reads (TargetAccess.verifySlot_reads crates.sha256 _ _)))
      fun _ _ => skirts_pure _ trivial
  have synced : book.Skirts host weather (do
      orElse path.access.syncParent (Commit.rollbackError path "rollback did not synchronize")
      let evidence ← liftWorktree (fromOption path.backup
        (Commit.rollbackLogic path "backup evidence is missing"))
      let _ ← orElse (path.access.verifySlot crates.sha256
          (.present { before with identity := evidence.identity })
          transaction.options.limits.maxSourceBytesPerFile)
        (Commit.rollbackError path "restored backup failed verification") : Action Unit)
      fun _ => True :=
    Skirts.bind (skirts_orElse (skirts_reads TargetAccess.syncParent_reads)) fun _ _ =>
      Skirts.bind skirts_liftWorktree fun evidence _ => settled evidence
  unfold Commit.restorePresent
  refine Skirts.bind skirts_liftWorktree fun backup _ => ?_
  refine Skirts.bind (skirts_orElse (skirts_reads
    (TargetAccess.slotEvidence_reads crates.sha256 _))) fun actual _ => ?_
  cases actual with
  | absent =>
      exact Skirts.bind (skirts_orElse fun _ _ reserved =>
        TargetAccess.installAbsentFrom_bypasses reserved) fun _ _ => synced
  | present actual =>
      refine skirts_ite (fun _ => ?_) fun _ => skirts_throw _
      exact Skirts.bind (skirts_orElse fun _ _ reserved =>
        TargetAccess.replaceFrom_bypasses reserved (apart.present before shown))
          fun _ _ => synced

theorem restore_skirts (apart : book.Apart host path) :
    book.Skirts host weather (Commit.restore crates transaction path) fun _ => True := by
  unfold Commit.restore
  cases before : path.before with
  | absent => exact restoreAbsent_skirts apart
  | present evidence => exact restorePresent_skirts apart evidence before

/-! ### Receipts and retained backups -/

theorem readReceipt_reads (file : Ino) (id : String) (options : WorktreeOptions) :
    Reads host weather (Undo.readReceipt crates file id options) fun _ => True := by
  unfold Undo.readReceipt
  refine Task.Yields.bind (Task.yields_adapt (yields_quiet (quiet_metadata _)))
    fun metadata _ => ?_
  refine yields_check fun _ => ?_
  refine Task.Yields.bind (Task.yields_adapt (yields_quiet (quiet_read _ _))) fun bytes _ => ?_
  refine yields_check fun _ => ?_
  exact Task.yields_result _ fun _ _ => trivial

theorem readExact_reads (control : ControlDir) (id : String) (options : WorktreeOptions) :
    Reads host weather (Undo.readExact crates control id options) fun _ => True := by
  unfold Undo.readExact
  refine Task.Yields.bind (Task.yields_adapt (ControlDir.openUndoReceipt_reads id))
    fun found _ => ?_
  cases found with
  | none => exact Task.yields_pure _ trivial
  | some file =>
      exact (readReceipt_reads file id options).bind fun _ _ => Task.yields_pure _ trivial

theorem usageFrom_reads (control : ControlDir) (options : WorktreeOptions) (bytes : Nat)
    (ids : List String) :
    Reads host weather (Undo.usageFrom crates control options bytes ids) fun _ => True := by
  induction ids generalizing bytes with
  | nil => exact Task.yields_pure _ trivial
  | cons id rest ih =>
      unfold Undo.usageFrom
      refine Task.Yields.bind (readExact_reads control id options) fun found _ => ?_
      refine Task.Yields.bind (Task.yields_result _ fun _ same => same) fun receipt _ => ?_
      refine Task.Yields.bind (Task.yields_result _ fun _ same => same) fun total _ => ?_
      exact yields_check fun _ => ih total

theorem storeUsage_reads (control : ControlDir) (options : WorktreeOptions) :
    Reads host weather (Undo.storeUsage crates control options) fun _ => True := by
  unfold Undo.storeUsage
  refine Task.Yields.bind (Task.yields_adapt ControlDir.undoReceiptIds_reads) fun ids _ => ?_
  refine yields_check fun _ => ?_
  exact (usageFrom_reads control options 0 ids).bind fun _ _ => Task.yields_pure _ trivial

theorem writeNew_skirts (control : ControlDir) (id : String) (bytes : Bytes) :
    book.Skirts host weather (Undo.writeNew control id bytes) fun _ => True := by
  intro seen ino reserved
  unfold Undo.writeNew
  refine Task.Yields.bind (Task.yields_adapt (ControlDir.createUndoReceipt_bypasses id))
    fun file foreign => ?_
  have written : Bypasses host weather book.slot seen
      (do perform (.write file bytes); perform (.syncFile file) : Io Unit) fun _ => True :=
    Task.Yields.bind (yields_call foreign) fun _ _ => yields_quiet (quiet_syncFile _)
  refine Task.Yields.bind (Task.yields_lift (Task.Upholds.mono written fun _ _ => trivial))
    fun result _ => ?_
  cases result with
  | ok value => exact Task.yields_adapt ControlDir.sync_reads.yields
  | error error =>
      refine Task.Yields.bind (Task.yields_lift (Task.Upholds.mono
        (ControlDir.removeUndoReceipt_bypasses reserved id) fun _ _ => trivial)) fun _ _ => ?_
      exact Task.yields_throw _

theorem prepareRetention_skirts (retention : UndoRetention) :
    book.Skirts host weather (Undo.prepareRetention crates transaction retention)
      fun _ => True := by
  unfold Undo.prepareRetention
  refine Skirts.bind skirts_liftWorktree fun _ _ => ?_
  refine Skirts.bind (skirts_reads (storeUsage_reads _ _)) fun usage _ => ?_
  refine Skirts.bind skirts_liftWorktree fun body _ => ?_
  refine skirts_ite (fun _ => skirts_throw _) fun _ => ?_
  exact Skirts.bind (writeNew_skirts _ _ _) fun _ _ => skirts_pure _ trivial

theorem discardTransitionalReceipt_skirts :
    book.Skirts host weather (Commit.discardTransitionalReceipt transaction) fun _ => True :=
  skirts_orElse fun _ _ reserved => ControlDir.removeUndoReceipt_bypasses reserved _

theorem cleanupStages_skirts :
    book.Skirts host weather (Commit.cleanupStages transaction) fun _ => True := by
  refine skirts_forM fun item _ => ?_
  obtain ⟨path, index⟩ := item
  change book.Skirts host weather (Commit.cleanupStage path index) _
  unfold Commit.cleanupStage
  cases path.stageName with
  | none => exact skirts_pure _ trivial
  | some stage =>
      exact Skirts.bind (skirts_orElse (removeArtifact_skirts _ _)) fun _ _ =>
        skirts_pure _ trivial

theorem retainBackups_skirts :
    book.Skirts host weather (Commit.retainBackups crates transaction) fun _ => True := by
  refine skirts_forM fun item _ => ?_
  obtain ⟨path, index⟩ := item
  change book.Skirts host weather (Commit.retainBackup crates transaction path index) _
  unfold Commit.retainBackup
  cases path.backupName with
  | none => cases path.backup <;> exact skirts_pure _ trivial
  | some name =>
      cases path.backup with
      | none => exact skirts_pure _ trivial
      | some expected =>
          exact skirts_orElse fun _ _ reserved =>
            ControlDir.retainBackupFrom_bypasses reserved _ _ _ _ _

end Logbook

end Worktree
