import Worktree.Operation.Committing
import Worktree.Operation.Recovery
import Worktree.Operation.Replaying
/-
The records a recovery appends, and how it keeps away from the journal.

A target is only replaced or removed when it shows the staged identity, and
what was staged is not the journal.
-/

namespace Worktree

open CrashLogic

namespace Logbook

variable {T : Type} {crates : Crates T} {book : Logbook crates} {host : Host} {weather : Weather}
  {mayRefuse : Prop} {options : WorktreeOptions} {parsed : ParsedJournal} {path : RecoveryPath}

/-! ### Reading -/

/-- The evidence of a path that is the journal names the journal. -/
def Betrays (book : Logbook crates) (host : Host) (path : RecoveryPath) (actual : SlotEvidence) :
    Prop :=
  path.access.slot host = book.slot →
    ∃ found, actual = .present found ∧ found.identity.inode = book.file

theorem currentState_skirts :
    book.Skirts host weather (Recovery.currentState crates options path)
      (book.Betrays host path) := by
  unfold Recovery.currentState
  refine skirts_orElse fun seen ino _ => ?_
  refine (TargetAccess.slotEvidence_bypasses crates.sha256 _).mono fun actual facts same => ?_
  obtain ⟨found, shown, identical⟩ := facts same
  exact ⟨found, shown, by rw [identical]; exact ino⟩

theorem artifactExistsExact_skirts (name : String) (spec : PresentSpec)
    (identity : Option FileIdentity) :
    book.Skirts host weather
      (Recovery.artifactExistsExact crates options parsed path name spec identity)
      fun _ => True := by
  unfold Recovery.artifactExistsExact
  refine Skirts.bind (skirts_attempt (skirts_reads
    (TargetAccess.artifactEvidence_reads crates.sha256 name _))) fun result _ => ?_
  cases result with
  | ok actual => exact skirts_ite (fun _ => skirts_pure _ trivial) fun _ => skirts_throw _
  | error error => exact skirts_ite (fun _ => skirts_pure _ trivial) fun _ => skirts_throw _

theorem verifyArtifact_recovery_skirts (name : String) (spec : PresentSpec)
    (identity : Option FileIdentity) :
    book.Skirts host weather
      (Recovery.verifyArtifact crates options parsed path name spec identity) fun _ => True := by
  unfold Recovery.verifyArtifact
  refine Skirts.bind (artifactExistsExact_skirts name spec identity) fun found _ => ?_
  exact skirts_ite (fun _ => skirts_throw _) fun _ => skirts_pure _ trivial

theorem linkedEvidence_skirts (name : String) (wrap : IoError → WorktreeError) :
    book.Skirts host weather
      (orElse (path.access.linkedArtifactEvidence crates.sha256 name options.maxBytes) wrap)
      fun _ => True :=
  skirts_orElse (skirts_reads (TargetAccess.linkedArtifactEvidence_reads crates.sha256 name _))

theorem linkedCreateIsExact_skirts :
    book.Skirts host weather (Recovery.linkedCreateIsExact crates options parsed path)
      fun _ => True := by
  unfold Recovery.linkedCreateIsExact
  split
  · next stage _ _ =>
      refine Skirts.bind (skirts_attempt (skirts_reads
        (TargetAccess.sameFileAsArtifact_reads stage)).any) fun result _ => ?_
      rcases result with error | linked
      · exact skirts_ite (fun _ => skirts_pure _ trivial) fun _ => skirts_throw _
      · cases linked with
        | false => exact skirts_pure _ trivial
        | true =>
            refine Skirts.bind (linkedEvidence_skirts _ _) fun evidence _ => ?_
            refine Skirts.bind skirts_liftWorktree fun spec _ => ?_
            exact skirts_ite (fun _ => skirts_pure _ trivial) fun _ => skirts_throw _
  · exact skirts_pure _ trivial

theorem linkedBackupRestoreIsExact_skirts :
    book.Skirts host weather (Recovery.linkedBackupRestoreIsExact crates options parsed path)
      fun _ => True := by
  unfold Recovery.linkedBackupRestoreIsExact
  split
  · next spec backup _ _ _ =>
      refine Skirts.bind (skirts_attempt (skirts_reads
        (TargetAccess.sameFileAsArtifact_reads backup)).any) fun result _ => ?_
      rcases result with error | linked
      · exact skirts_ite (fun _ => skirts_pure _ trivial) fun _ => skirts_throw _
      · cases linked with
        | false => exact skirts_pure _ trivial
        | true =>
            refine Skirts.bind (linkedEvidence_skirts _ _) fun evidence _ => ?_
            exact skirts_ite (fun _ => skirts_pure _ trivial) fun _ => skirts_throw _
  · exact skirts_pure _ trivial

/-! ### Restoring one path -/

theorem rollbackLinkedCreate_skirts :
    book.Skirts host weather (Recovery.rollbackLinkedCreate crates options path)
      fun _ => True := by
  unfold Recovery.rollbackLinkedCreate
  refine Skirts.bind skirts_liftWorktree fun stage _ => ?_
  refine Skirts.bind (skirts_orElse fun _ _ reserved =>
    TargetAccess.rollbackLinkedInstall_bypasses reserved) fun _ _ => ?_
  refine Skirts.bind currentState_skirts fun actual _ => ?_
  exact skirts_ite (fun _ => skirts_throw _) fun _ => skirts_pure _ trivial

theorem finishLinkedBackupRestore_skirts :
    book.Skirts host weather (Recovery.finishLinkedBackupRestore crates options path)
      fun _ => True := by
  unfold Recovery.finishLinkedBackupRestore
  refine Skirts.bind skirts_liftWorktree fun backup _ => ?_
  refine Skirts.bind skirts_liftWorktree fun identity _ => ?_
  refine Skirts.bind (skirts_orElse fun _ _ reserved =>
    TargetAccess.finishLinkedInstall_bypasses reserved identity) fun _ _ => ?_
  refine Skirts.bind skirts_liftWorktree fun before _ => ?_
  refine Skirts.bind currentState_skirts fun actual _ => ?_
  exact skirts_ite (fun _ => skirts_throw _) fun _ => skirts_pure _ trivial

theorem restoreCreated_skirts {actual : SlotEvidence}
    (foreign : ∀ found, actual = .present found → found.identity.inode ≠ book.file) :
    book.Skirts host weather (Recovery.restoreCreated crates options parsed path actual)
      fun _ => True := by
  unfold Recovery.restoreCreated
  refine Skirts.bind skirts_liftWorktree fun present found => ?_
  have shown : actual = .present present := by
    cases actual with
    | absent => cases found
    | present evidence =>
        cases found
        rfl
  refine Skirts.bind (skirts_orElse fun seen ino _ =>
    TargetAccess.removeExact_bypasses crates.sha256 present _
      (.inl (identity_ne ino (foreign present shown)))) fun _ _ => ?_
  exact skirts_orElse (skirts_reads TargetAccess.syncParent_reads)

theorem restoreBackup_skirts {before : PresentSpec} {actual : SlotEvidence}
    (foreign : ∀ found, actual = .present found → path.access.slot host ≠ book.slot) :
    book.Skirts host weather (Recovery.restoreBackup crates options parsed path before actual)
      fun _ => True := by
  have checked : book.Skirts host weather (do
      orElse path.access.syncParent
        (Recovery.pathIo parsed path "restored operation backup did not synchronize")
      if !Recovery.matchesPresent before (← Recovery.currentState crates options path)
          path.backupIdentity then
        throw (Recovery.foreignState parsed path
          "restored operation backup failed exact evidence verification") : Action Unit)
      fun _ => True := by
    refine Skirts.bind (skirts_orElse (skirts_reads TargetAccess.syncParent_reads)) fun _ _ => ?_
    refine Skirts.bind currentState_skirts fun after _ => ?_
    exact skirts_ite (fun _ => skirts_throw _) fun _ => skirts_pure _ trivial
  unfold Recovery.restoreBackup
  refine Skirts.bind skirts_liftWorktree fun backup _ => ?_
  refine Skirts.bind (verifyArtifact_recovery_skirts _ _ _) fun _ _ => ?_
  refine skirts_ite (fun _ => ?_) fun present => ?_
  · exact Skirts.bind (skirts_orElse fun _ _ reserved =>
      TargetAccess.installAbsentFrom_bypasses reserved) fun _ _ => checked
  · have apart : path.access.slot host ≠ book.slot := by
      cases actual with
      | absent => exact absurd rfl present
      | present found => exact foreign found rfl
    exact Skirts.bind (skirts_orElse fun _ _ reserved =>
      TargetAccess.replaceFrom_bypasses reserved apart) fun _ _ => checked

/-- What was staged for the path is not the journal. -/
def Foreign (book : Logbook crates) (path : RecoveryPath) : Prop :=
  path.stageIdentity.isSome = path.after.isPresent ∧
    ∀ identity, path.stageIdentity = some identity → identity.inode ≠ book.file

/-- A path in its after state is not the journal. -/
theorem foreign_of_matchesAfter {actual : SlotEvidence} (foreign : book.Foreign path)
    (matched : Recovery.matchesAfter path actual = true) (found : PresentEvidence)
    (shown : actual = .present found) : found.identity.inode ≠ book.file := by
  subst shown
  unfold Recovery.matchesAfter at matched
  cases after : path.after with
  | absent =>
      rw [after] at matched
      cases matched
  | present spec =>
      rw [after] at matched
      have staged := foreign.1
      rw [after] at staged
      obtain ⟨identity, known⟩ := Option.isSome_iff_exists.mp staged
      rw [known] at matched
      simp only [Recovery.matchesPresent, Recovery.matchesPresentEvidence, Option.some_or,
        Option.all_some, Bool.and_eq_true, decide_eq_true_eq] at matched
      rw [← matched.2]
      exact foreign.2 identity known

theorem restoreBefore_skirts {actual : SlotEvidence} (foreign : book.Foreign path)
    (betrays : book.Betrays host path actual)
    (matched : Recovery.matchesAfter path actual = true) :
    book.Skirts host weather (Recovery.restoreBefore crates options parsed path actual)
      fun _ => True := by
  have other := foreign_of_matchesAfter foreign matched
  unfold Recovery.restoreBefore
  split
  · exact restoreCreated_skirts other
  · refine restoreBackup_skirts fun found shown same => ?_
    obtain ⟨found', shown', identical⟩ := betrays same
    exact other found' shown' identical
  · exact skirts_throw _

/-! ### Cleaning up -/

theorem removeArtifact_recovery_skirts (name : String) (wrap : IoError → WorktreeError) :
    book.Skirts host weather (do
      let removed ← orElse (path.access.removeArtifact name) wrap
      return if removed then 1 else 0 : Action Nat) fun _ => True :=
  Skirts.bind (skirts_orElse (removeArtifact_skirts _ _)) fun _ _ => skirts_pure _ trivial

theorem cleanupArtifact_skirts (name : String) (spec : PresentSpec)
    (identity : Option FileIdentity) (message : String) :
    book.Skirts host weather
      (Recovery.cleanupArtifact crates options parsed path name spec identity message)
      fun _ => True := by
  unfold Recovery.cleanupArtifact
  refine skirts_ite (fun _ => ?_) fun _ => removeArtifact_recovery_skirts _ _
  unfold Recovery.removeArtifactIfExact
  refine Skirts.bind (artifactExistsExact_skirts name spec identity) fun found _ => ?_
  exact skirts_ite (fun _ => removeArtifact_recovery_skirts _ _) fun _ => skirts_pure _ trivial

theorem cleanupArtifacts_skirts (keepBackups : Bool) (paths : List RecoveryPath) :
    book.Skirts host weather
      (Recovery.cleanupArtifacts crates options parsed keepBackups paths) fun _ => True := by
  have stages : ∀ path, book.Skirts host weather
      (Recovery.cleanupStage crates options parsed path) fun _ => True := by
    intro path
    unfold Recovery.cleanupStage
    split
    · exact cleanupArtifact_skirts _ _ _ _
    · exact skirts_pure _ trivial
  have backups : ∀ path, book.Skirts host weather
      (Recovery.cleanupBackup crates options parsed path) fun _ => True := by
    intro path
    unfold Recovery.cleanupBackup
    split
    · exact cleanupArtifact_skirts _ _ _ _
    · exact skirts_pure _ trivial
  induction paths with
  | nil => exact skirts_pure _ trivial
  | cons path rest ih =>
      unfold Recovery.cleanupArtifacts
      refine Skirts.bind (stages path) fun count _ => ?_
      refine skirts_ite (fun _ => ?_) fun _ => ?_
      · have zero : book.Skirts host weather (pure 0 : Action Nat) fun _ => True :=
          skirts_pure 0 trivial
        refine zero.bind fun more _ => ?_
        exact ih.bind fun _ _ => skirts_pure _ trivial
      · refine Skirts.bind (backups path) fun more _ => ?_
        exact ih.bind fun _ _ => skirts_pure _ trivial

theorem relocateBackups_skirts (control : ControlDir) (root : FsRoot) (receipt : StoredReceipt) :
    book.Skirts host weather (Undo.relocateBackups crates control root receipt options)
      fun _ => True := by
  refine skirts_forM fun item _ => ?_
  obtain ⟨path, position⟩ := item
  dsimp only
  split
  · refine Skirts.bind (skirts_orElse (skirts_reads (openTarget_reads _ _))) fun access _ => ?_
    exact skirts_orElse fun _ _ reserved => ControlDir.retainBackupFrom_bypasses reserved _ _ _ _ _
  · exact skirts_pure _ trivial

/-! ### The records of a recovery -/

/-- What a recovery of this journal may append; `inv` is what the records
satisfy when this many paths, the latest first, are settled. -/
structure Resumes (book : Logbook crates) (mayRefuse : Prop) (parsed : ParsedJournal)
    (inv : Nat → List Record → Prop) : Prop where
  aborted : parsed.finished = none → parsed.prepared = false ∨ parsed.commitIntents = ∅ →
    ∀ records, book.safe records → inv 0 records →
      book.Takes mayRefuse records (.finished .aborted)
  skipped : ∀ count index, parsed.paths.length = count + index + 1 →
    index ∉ parsed.commitIntents ∨ index ∈ parsed.rolledBack →
    ∀ records, book.safe records → inv count records → inv (count + 1) records
  intent : ∀ count index, parsed.paths.length = count + index + 1 →
    index ∈ parsed.commitIntents → index ∉ parsed.rollbackIntents →
    ∀ records, book.safe records → inv count records →
      book.Takes mayRefuse records (.rollbackIntent index)
  rolledBack : ∀ count index, parsed.paths.length = count + index + 1 →
    index ∈ parsed.commitIntents → index ∉ parsed.rollbackIntents →
    ∀ records, book.safe records → inv count records →
      book.Takes mayRefuse (records ++ [.rollbackIntent index]) (.rolledBack index) ∧
        inv (count + 1) (records ++ [.rollbackIntent index, .rolledBack index])
  pending : ∀ count index, parsed.paths.length = count + index + 1 →
    index ∈ parsed.rollbackIntents → index ∉ parsed.rolledBack →
    ∀ records, book.safe records → inv count records →
      book.Takes mayRefuse records (.rolledBack index) ∧
        inv (count + 1) (records ++ [.rolledBack index])
  finished : parsed.finished = none → parsed.commitIntents ≠ ∅ →
    ∀ records, book.safe records → inv parsed.paths.length records →
      book.Takes mayRefuse records (.finished .rolledBack)

variable {pre post : List Record → Prop} {inv : Nat → List Record → Prop}

theorem append_opens (record : Record) (wrap : JournalError → WorktreeError)
    (step : ∀ records, book.safe records → pre records →
      book.Takes mayRefuse records record ∧ post (records ++ [record])) :
    book.Opens (fsMachine host weather) (book.Cautious host weather mayRefuse)
      (appendOr crates record wrap) pre fun _ => post := by
  have appended : book.Logs (fsMachine host weather) (book.Cautious host weather mayRefuse)
      (appendOr crates record wrap).run pre
      fun result records => ∀ value, result = .ok value → post records := by
    refine appendOr_logs record wrap fun records safe holds => ?_
    obtain ⟨takes, after⟩ := step records safe holds
    refine ⟨?_, takes.safe, fun _ _ => after, takes.room.imp_right fun may => ⟨may, ?_⟩⟩
    · constructor
      · intro header
        rw [takes.body.1] at header
        cases header
      · intro empty
        exact absurd empty takes.body.2
    · intro _ error value impossible
      cases impossible
  exact appended.opens.mono (fun _ _ => id) fun value records _ holds => holds value rfl

theorem append_last (record : Record) (wrap : JournalError → WorktreeError)
    (step : ∀ records, book.safe records → pre records → book.Takes mayRefuse records record) :
    book.Opens (fsMachine host weather) (book.Cautious host weather mayRefuse)
      (appendOr crates record wrap) pre fun _ _ => True :=
  append_opens record wrap fun records safe holds => ⟨step records safe holds, trivial⟩

/-- The records while this path is restored. -/
def Reversing (book : Logbook crates) (parsed : ParsedJournal) (inv : Nat → List Record → Prop)
    (count index : Nat) (here : List Record) : Prop :=
  index ∈ parsed.rollbackIntents ∧ inv count here ∨
    index ∉ parsed.rollbackIntents ∧ ∃ records, book.safe records ∧ inv count records ∧
      here = records ++ [.rollbackIntent index]

theorem appendRollbackIntent_opens {count : Nat} (resumes : book.Resumes mayRefuse parsed inv)
    (place : parsed.paths.length = count + path.index + 1)
    (announced : path.index ∈ parsed.commitIntents) :
    book.Opens (fsMachine host weather) (book.Cautious host weather mayRefuse)
      (Recovery.appendRollbackIntent crates parsed path) (inv count)
      fun _ => Reversing book parsed inv count path.index := by
  unfold Recovery.appendRollbackIntent
  by_cases reversing : path.index ∈ parsed.rollbackIntents
  · rw [if_pos reversing]
    exact opens_pure _ fun records _ holds => .inl ⟨reversing, holds⟩
  · rw [if_neg reversing]
    refine append_opens _ _ fun records safe holds => ?_
    exact ⟨resumes.intent count _ place announced reversing records safe holds,
      .inr ⟨reversing, records, safe, holds, rfl⟩⟩

theorem appendRolledBack_opens {count : Nat} (resumes : book.Resumes mayRefuse parsed inv)
    (place : parsed.paths.length = count + path.index + 1)
    (announced : path.index ∈ parsed.commitIntents) (fresh : path.index ∉ parsed.rolledBack)
    (stronger : ∀ records, pre records → Reversing book parsed inv count path.index records) :
    book.Opens (fsMachine host weather) (book.Cautious host weather mayRefuse)
      (Recovery.appendRecord crates parsed (.rolledBack path.index)) pre
      fun _ => inv (count + 1) := by
  refine append_opens _ _ fun records safe holds => ?_
  rcases stronger records holds with ⟨reversing, holds⟩ |
    ⟨reversing, before, safeBefore, settled, rfl⟩
  · exact resumes.pending count _ place reversing fresh records safe holds
  · have next := resumes.rolledBack count _ place announced reversing before safeBefore
      settled
    rw [List.append_assoc]
    exact next

theorem finishLinkedBackupPath_opens {count : Nat} (resumes : book.Resumes mayRefuse parsed inv)
    (announcing : parsed.rollbackIntents ⊆ parsed.commitIntents)
    (place : parsed.paths.length = count + path.index + 1) :
    book.Opens (fsMachine host weather) (book.Cautious host weather mayRefuse)
      (Recovery.finishLinkedBackupPath crates options parsed path) (inv count)
      fun _ => inv (count + 1) := by
  unfold Recovery.finishLinkedBackupPath
  refine opens_check fun fresh => ?_
  refine opens_check fun reversing => ?_
  rw [not_not] at reversing
  refine opens_beside finishLinkedBackupRestore_skirts fun _ _ => ?_
  exact appendRolledBack_opens resumes place (announcing reversing) fresh fun records holds =>
    .inl ⟨reversing, holds⟩

theorem rollbackLinkedPath_opens {count : Nat} (resumes : book.Resumes mayRefuse parsed inv)
    (place : parsed.paths.length = count + path.index + 1) :
    book.Opens (fsMachine host weather) (book.Cautious host weather mayRefuse)
      (Recovery.rollbackLinkedPath crates options parsed path) (inv count)
      fun _ => inv (count + 1) := by
  unfold Recovery.rollbackLinkedPath
  refine opens_check fun fresh => ?_
  refine opens_check fun announced => ?_
  rw [not_not] at announced
  refine Opens.bind (appendRollbackIntent_opens resumes place announced) fun _ => ?_
  refine opens_beside rollbackLinkedCreate_skirts fun _ _ => ?_
  exact appendRolledBack_opens resumes place announced fresh fun records => id

theorem attestUnchangedIntent_opens {count : Nat} (resumes : book.Resumes mayRefuse parsed inv)
    (place : parsed.paths.length = count + path.index + 1)
    (fresh : path.index ∉ parsed.rolledBack) :
    book.Opens (fsMachine host weather) (book.Cautious host weather mayRefuse)
      (Recovery.attestUnchangedIntent crates parsed path) (inv count)
      fun _ => inv (count + 1) := by
  unfold Recovery.attestUnchangedIntent
  by_cases announced : path.index ∈ parsed.commitIntents
  · rw [if_pos announced]
    refine opens_beside (skirts_orElse (skirts_reads TargetAccess.syncParent_reads)) fun _ _ => ?_
    refine Opens.bind (appendRollbackIntent_opens resumes place announced) fun _ => ?_
    exact appendRolledBack_opens resumes place announced fresh fun records => id
  · rw [if_neg announced]
    exact opens_pure _ fun records safe holds =>
      resumes.skipped count _ place (.inl announced) records safe holds

theorem rollbackSettled_opens {count : Nat} {actual : SlotEvidence}
    (resumes : book.Resumes mayRefuse parsed inv)
    (place : parsed.paths.length = count + path.index + 1)
    (foreign : path.index ∈ parsed.commitIntents → book.Foreign path)
    (betrays : book.Betrays host path actual) :
    book.Opens (fsMachine host weather) (book.Cautious host weather mayRefuse)
      (Recovery.rollbackSettled crates options parsed path actual) (inv count)
      fun _ => inv (count + 1) := by
  unfold Recovery.rollbackSettled
  refine opens_ite (fun settled => ?_) fun fresh => opens_ite (fun _ => ?_) fun _ =>
    opens_ite (fun _ => opens_throw _) fun announced => opens_ite (fun _ => opens_throw _)
      fun matched => ?_
  · refine opens_ite (fun _ => opens_pure _ fun records safe holds => ?_) fun _ => opens_throw _
    exact resumes.skipped count _ place (.inr settled) records safe holds
  · exact attestUnchangedIntent_opens resumes place fresh
  · rw [not_not] at announced
    refine Opens.bind (appendRollbackIntent_opens resumes place announced) fun _ => ?_
    refine opens_beside (restoreBefore_skirts (foreign announced) betrays
      (by simpa using matched)) fun _ _ => ?_
    exact appendRolledBack_opens resumes place announced fresh fun records => id

theorem rollbackPath_opens {count : Nat} (resumes : book.Resumes mayRefuse parsed inv)
    (announcing : parsed.rollbackIntents ⊆ parsed.commitIntents)
    (place : parsed.paths.length = count + path.index + 1)
    (foreign : path.index ∈ parsed.commitIntents → book.Foreign path) :
    book.Opens (fsMachine host weather) (book.Cautious host weather mayRefuse)
      (Recovery.rollbackPath crates options parsed path) (inv count)
      fun _ => inv (count + 1) := by
  unfold Recovery.rollbackPath
  refine opens_beside linkedBackupRestoreIsExact_skirts fun restored _ => ?_
  refine opens_ite (fun _ => finishLinkedBackupPath_opens resumes announcing place) fun _ => ?_
  refine opens_beside linkedCreateIsExact_skirts fun created _ => ?_
  refine opens_ite (fun _ => rollbackLinkedPath_opens resumes place) fun _ => ?_
  refine opens_beside currentState_skirts fun actual betrays => ?_
  exact rollbackSettled_opens resumes place foreign betrays

/-! ### The whole journal -/

theorem discardUncommitted_skirts :
    book.Skirts host weather (Recovery.discardUncommitted crates options parsed)
      fun _ => True := by
  refine skirts_forM fun path _ => ?_
  unfold Recovery.discardPath
  refine Skirts.bind linkedCreateIsExact_skirts fun linked _ => ?_
  refine skirts_check fun _ => ?_
  refine Skirts.bind currentState_skirts fun actual _ => ?_
  exact skirts_ite (fun _ => skirts_throw _) fun _ => skirts_pure _ trivial

theorem verifyFinished_skirts (committed : Bool) :
    book.Skirts host weather (Recovery.verifyFinished crates options parsed committed)
      fun _ => True := by
  refine skirts_forM fun path _ => ?_
  unfold Recovery.verifyFinishedPath
  refine Skirts.bind currentState_skirts fun actual _ => ?_
  refine skirts_check fun _ => ?_
  exact skirts_orElse (skirts_reads TargetAccess.syncParent_reads)

/-- A journal that has ended takes no more records. -/
theorem recoverState_ended_opens (ended : parsed.finished ≠ none) :
    book.Opens (fsMachine host weather) (book.Cautious host weather mayRefuse)
      (Recovery.recoverState crates options parsed) pre fun _ _ => True := by
  unfold Recovery.recoverState
  split
  · exact opens_beside (verifyFinished_skirts true) fun _ _ => opens_pure _ fun _ _ _ => trivial
  · exact opens_beside (verifyFinished_skirts false) fun _ _ => opens_pure _ fun _ _ _ => trivial
  · next unfinished => exact absurd unfinished ended

/-- Everything a recovery does to the paths of the journal leaves a safe journal. -/
theorem recoverState_opens {records : List Record} (resumes : book.Resumes mayRefuse parsed inv)
    (tells : parsed.Tells records) (unfinished : parsed.finished = none)
    (foreign : ∀ path ∈ parsed.paths, path.index ∈ parsed.commitIntents → book.Foreign path) :
    book.Opens (fsMachine host weather) (book.Cautious host weather mayRefuse)
      (Recovery.recoverState crates options parsed) (inv 0) fun _ _ => True := by
  unfold Recovery.recoverState
  rw [unfinished]
  refine opens_ite (fun idle => ?_) fun changed => ?_
  · have idle' : parsed.prepared = false ∨ parsed.commitIntents = ∅ := by simpa using idle
    refine opens_beside discardUncommitted_skirts fun _ _ => ?_
    refine Opens.bind (append_last _ _ fun records safe holds =>
      resumes.aborted unfinished idle' records safe holds) fun _ => ?_
    exact opens_pure _ fun _ _ _ => trivial
  · have announced : parsed.commitIntents ≠ ∅ := by
      intro none_announced
      exact changed (by simp [none_announced])
    have loop : book.Opens (fsMachine host weather) (book.Cautious host weather mayRefuse)
        (Recovery.rollbackChanged crates options parsed) (inv 0)
        fun _ => inv parsed.paths.reverse.length := by
      refine opens_forM inv fun past path rest split => ?_
      have counted := congrArg List.length split
      rw [List.length_reverse, List.length_append, List.length_cons] at counted
      have found : parsed.paths.reverse[past.length]? = some path := by
        rw [split, List.getElem?_append_right (Nat.le_refl _)]
        simp
      rw [List.getElem?_reverse (by omega)] at found
      have placed := tells.placed _ path found
      exact rollbackPath_opens resumes tells.announcing (by omega)
        (foreign path (List.mem_of_getElem? found))
    rw [List.length_reverse] at loop
    refine Opens.bind loop fun _ => ?_
    refine Opens.bind (append_last _ _ fun records safe holds =>
      resumes.finished unfinished announced records safe holds) fun _ => ?_
    exact opens_pure _ fun _ _ _ => trivial

end Logbook

end Worktree
