import Worktree.Filesystem.Bypassing
/-
The operations on the state directory, seen from one of its files: the lock,
the receipts, the backups and the other journals are never that file.
-/

namespace Worktree

open CrashLogic

theorem hasPrefix_append (start rest : String) : hasPrefix (start ++ rest) start = true := by
  unfold hasPrefix
  rw [String.toList_append, List.isPrefixOf_iff_prefix]
  exact List.prefix_append _ _

/-- A beginning, an identifier and what ends it. -/
theorem bearsId_of_id {start id rest : String} {ending : List Char → Bool}
    (valid : isValidId id = true) (ends : ending rest.toList = true) :
    bearsId start ending (start ++ id ++ rest) = true := by
  unfold isValidId at valid
  rw [Bool.and_eq_true, decide_eq_true_eq] at valid
  have starts : hasPrefix (start ++ id ++ rest) start = true := by
    rw [String.append_assoc]
    exact hasPrefix_append start _
  have taken : (id.toList ++ rest.toList).take 32 = id.toList := List.take_left' valid.1
  have dropped : (id.toList ++ rest.toList).drop 32 = rest.toList := List.drop_left' valid.1
  unfold bearsId
  rw [starts]
  simp only [String.toList_append, List.append_assoc, List.drop_left, taken, dropped, valid.1,
    valid.2, ends, decide_true, Bool.and_true]

/-- The name of a receipt is its own only spelling. -/
theorem ownName_of_receipt {id name : String} (named : undoName id = .ok name) :
    ownName name = true ∧ hasPrefix name undoPrefix = true ∧ isValidId id = true := by
  unfold undoName validateUndoId at named
  split at named
  · next valid =>
      cases named
      have starts : hasPrefix (undoPrefix ++ id ++ undoSuffix) undoPrefix = true := by
        rw [String.append_assoc]
        exact hasPrefix_append undoPrefix _
      have bears : bearsId "undo-" (· = ".json".toList) (undoPrefix ++ id ++ undoSuffix) = true :=
        bearsId_of_id valid (by decide)
      refine ⟨?_, starts, valid⟩
      unfold ownName
      rw [bears, Bool.or_true, Bool.true_or]
  · cases named

section

variable {host : Host} {weather : Weather} {slot : Slot} {seen : Seen} {dir : Ino}
  {id name : String}

theorem Reserved.receipt_ne (reserved : Reserved slot seen) (named : undoName id = .ok name) :
    host.slot dir name ≠ slot := by
  have own := ownName_of_receipt named
  rw [slot_of_own own.1]
  rintro rfl
  rw [reserved.receipt] at own
  cases own.2.1

end

namespace ControlDir

variable {host : Host} {weather : Weather} {slot : Slot} {seen : Seen} {control : ControlDir}
  {name : String}

/-! ### The journals and the lock -/

theorem openNamedJournal_reads (name : String) :
    Reads host weather (control.openNamedJournal name) fun _ => True := by
  unfold openNamedJournal
  refine Task.Yields.bind (yields_attempt (yields_quiet (quiet_openReadWrite _ _)))
    fun result _ => ?_
  cases result with
  | ok file => exact Task.yields_pure _ trivial
  | error error =>
      exact yields_ite (fun _ => Task.yields_pure _ trivial) fun _ => Task.yields_throw _

theorem openOperationJournal_reads :
    Reads host weather control.openOperationJournal fun _ => True := by
  unfold openOperationJournal
  refine Task.Yields.bind (openNamedJournal_reads _) fun current _ => ?_
  refine Task.Yields.bind (openNamedJournal_reads _) fun legacy _ => ?_
  cases current with
  | none => cases legacy <;> exact Task.yields_pure _ trivial
  | some file =>
      cases legacy with
      | none => exact Task.yields_pure _ trivial
      | some other => exact Task.yields_throw _

section

variable {allowed : {ρ : Type} → FsOp ρ → Prop} {known : World → Prop}

theorem openNamedJournal_finds {file : Ino}
    (stored : ∀ world, known world → ∃ seen, world.look (host.slot control.dir name) = some seen ∧
      seen.ino = file ∧ seen.inode.kind = .file) :
    Task.Yields (fsMachine host weather) allowed known (control.openNamedJournal name)
      fun found => found = some file := by
  unfold openNamedJournal
  refine Task.Yields.bind (yields_attempt_found file (quiet_openReadWrite _ _) id
    fun world knows => ?_) fun result facts => ?_
  · obtain ⟨seen, shows, ino, kind⟩ := stored world knows
    refine ⟨by simp [FsCall.present, shows], ?_⟩
    simp only [FsCall.exec, FsCall.execOpen, shows, kind, ino]
  · cases result with
    | ok value => exact Task.yields_pure _ (by rw [facts.1 value rfl])
    | error error =>
        refine yields_ite (fun missing => ?_) fun _ => Task.yields_throw _
        exact absurd missing (facts.2 error rfl)

theorem openOperationJournal_finds {file : Ino}
    (stored : ∀ world, known world →
      ∃ seen, world.look (host.slot control.dir operationJournal) = some seen ∧
        seen.ino = file ∧ seen.inode.kind = .file) :
    Task.Yields (fsMachine host weather) allowed known control.openOperationJournal
      fun found => found = some file := by
  unfold openOperationJournal
  refine Task.Yields.bind (openNamedJournal_finds stored) fun current same => ?_
  subst same
  refine Task.Yields.bind (Reads.yields (openNamedJournal_reads _)) fun legacy _ => ?_
  cases legacy with
  | none => exact Task.yields_pure _ rfl
  | some other => exact Task.yields_throw _

end

theorem sync_reads : Reads host weather control.sync fun _ => True :=
  yields_quiet (quiet_syncDir _)

theorem createNamedJournal_bypasses (name : String) :
    Bypasses host weather slot seen (control.createNamedJournal name)
      fun file => file ≠ seen.ino :=
  bypasses_createNew _ _

theorem removeNamedJournal_bypasses (apart : host.slot control.dir name ≠ slot) :
    Bypasses host weather slot seen (control.removeNamedJournal name) fun _ => True := by
  unfold removeNamedJournal
  refine Task.Yields.bind (yields_attempt (bypasses_removeFile apart)) fun result _ => ?_
  cases result with
  | ok value => exact sync_reads.yields
  | error error =>
      exact yields_ite (fun _ => Task.yields_pure _ trivial) fun _ => Task.yields_throw _

/-! ### Receipts -/

theorem createUndoReceipt_bypasses (id : String) :
    Bypasses host weather slot seen (control.createUndoReceipt id)
      fun file => file ≠ seen.ino := by
  unfold createUndoReceipt
  exact Task.Yields.bind yields_liftExcept fun name _ => createNamedJournal_bypasses name

theorem openUndoReceipt_reads (id : String) :
    Reads host weather (control.openUndoReceipt id) fun _ => True := by
  unfold openUndoReceipt
  exact Task.Yields.bind yields_liftExcept fun name _ => openNamedJournal_reads name

theorem removeUndoReceipt_bypasses (reserved : Reserved slot seen) (id : String) :
    Bypasses host weather slot seen (control.removeUndoReceipt id) fun _ => True := by
  unfold removeUndoReceipt
  exact Task.Yields.bind yields_liftExcept fun name named =>
    removeNamedJournal_bypasses (reserved.receipt_ne named)

theorem undoReceiptIds_reads : Reads host weather control.undoReceiptIds fun _ => True := by
  unfold undoReceiptIds
  refine Task.Yields.bind (yields_quiet (quiet_entries _)) fun names _ => ?_
  refine Task.Yields.bind (Task.yields_forM fun id _ => ?_) fun _ _ => Task.yields_pure _ trivial
  exact Task.Yields.mono yields_liftExcept fun _ _ => trivial

/-! ### Backups -/

theorem backupEvidenceWithLinks_reads (sha256 : Bytes → Sha256Hash) (name : String)
    (maxBytes links : Nat) :
    Reads host weather (control.backupEvidenceWithLinks sha256 name maxBytes links)
      fun _ => validateArtifactName name = .ok () := by
  unfold backupEvidenceWithLinks
  refine Task.Yields.bind yields_liftExcept fun _ valid => ?_
  refine Task.Yields.bind (yields_quiet (quiet_openRead _ _)) fun file _ => ?_
  refine Task.Yields.bind (yields_quiet (quiet_metadata _)) fun metadata _ => ?_
  refine Task.Yields.bind yields_liftExcept fun identity _ => ?_
  refine Task.Yields.bind yields_liftExcept fun limit _ => ?_
  refine Task.Yields.bind (yields_quiet (quiet_read _ _)) fun bytes _ => ?_
  refine yields_check fun _ => ?_
  refine Task.Yields.bind (yields_quiet (quiet_metadata _)) fun final _ => ?_
  refine Task.Yields.bind yields_liftExcept fun finalIdentity _ => ?_
  exact yields_check fun _ => Task.yields_pure _ valid

theorem optionalEvidence_reads {evidence : Io PresentEvidence} {good : PresentEvidence → Prop}
    (reads : Reads host weather evidence good) :
    Reads host weather (optionalEvidence evidence)
      fun found => ∀ value, found = some value → good value := by
  unfold optionalEvidence
  refine Task.Yields.bind (yields_attempt reads) fun result facts => ?_
  cases result with
  | ok value =>
      refine Task.yields_pure _ fun found same => ?_
      cases same
      exact facts value rfl
  | error error =>
      refine yields_ite (fun _ => Task.yields_pure _ fun found same => ?_)
        fun _ => Task.yields_throw _
      cases same

theorem retainBackupFrom_bypasses (reserved : Reserved slot seen) (sha256 : Bytes → Sha256Hash)
    (target : TargetAccess) (name : String) (expected : PresentEvidence) (maxBytes : Nat) :
    Bypasses host weather slot seen
      (control.retainBackupFrom sha256 target name expected maxBytes) fun _ => True := by
  unfold retainBackupFrom
  refine yields_check fun _ => ?_
  refine Task.Yields.bind (optionalEvidence_reads
    (TargetAccess.artifactEvidence_reads sha256 name maxBytes)).yields fun adjacent facts => ?_
  refine Task.Yields.bind (optionalEvidence_reads
    (backupEvidenceWithLinks_reads sha256 name maxBytes 1)).yields fun retained _ => ?_
  cases adjacent with
  | none =>
      cases retained with
      | none => exact Task.yields_throw _
      | some actual =>
          exact yields_ite (fun _ => Task.yields_pure _ trivial) fun _ => Task.yields_throw _
  | some actual =>
      cases retained with
      | some other => exact Task.yields_throw _
      | none =>
          refine yields_ite (fun _ => ?_) fun _ => Task.yields_throw _
          have valid := (facts actual rfl).1
          have spares : Spares host slot seen.ino
              (.io (.rename target.parent name control.dir name)) :=
            ⟨reserved.artifact_ne valid, reserved.artifact_ne valid⟩
          refine Task.Yields.bind (yields_call spares) fun _ _ => ?_
          refine Task.Yields.bind TargetAccess.syncParent_reads.yields fun _ _ => ?_
          refine Task.Yields.bind sync_reads.yields fun _ _ => ?_
          refine Task.Yields.bind (backupEvidenceWithLinks_reads sha256 name maxBytes 1).yields
            fun moved _ => ?_
          exact yields_ite (fun _ => Task.yields_throw _) fun _ => Task.yields_pure _ trivial

end ControlDir

/-! ### The directory itself -/

namespace FsRoot

variable {host : Host} {weather : Weather} {slot : Slot} {seen : Seen}

/-- The state directory of this root is this one. -/
def Controls (host : Host) (root : FsRoot) (dir : Ino) (world : World) : Prop :=
  ∃ outer, world.Leads (host.slot root.dir ".weavatrix") outer ∧
    world.Leads (host.slot outer "worktree") dir

theorem controls_maintains (root : FsRoot) (dir : Ino) :
    (fsMachine host weather).Maintains (fun _ => True) (Controls host root dir) := by
  constructor
  · rintro ρ op start answer finish _ ⟨outer, first, second⟩ stepped
    exact ⟨outer, (World.leads_maintains host weather _ _).step op start answer finish trivial first
      stepped, (World.leads_maintains host weather _ _).step op start answer finish trivial second
      stepped⟩
  · rintro ρ op start left _ ⟨outer, first, second⟩ torn
    exact ⟨outer, (World.leads_maintains host weather _ _).torn op start left trivial first torn,
      (World.leads_maintains host weather _ _).torn op start left trivial second torn⟩

section

variable {allowed : {ρ : Type} → FsOp ρ → Prop} {known : World → Prop}

theorem openOrCreateChild_finds {parent dir : Ino} {name : String} {create : Bool}
    (leads : ∀ world, known world → world.Leads (host.slot parent name) dir) :
    Task.Yields (fsMachine host weather) allowed known (openOrCreateChild parent name create)
      fun found => found = some dir := by
  unfold openOrCreateChild
  have bind : ∀ {program : Io (Option Ino)} {after : Option Ino → Io (Option Ino)},
      Task.Yields (fsMachine host weather) allowed known program (· = some dir) →
      (∀ found, found = some dir →
        Task.Yields (fsMachine host weather) allowed known (after found) (· = some dir)) →
      Task.Yields (fsMachine host weather) allowed known (program >>= after) (· = some dir) :=
    fun first second => Task.Yields.bind first second
  refine bind ?_ fun found same => ?_
  · refine Task.Yields.bind (yields_attempt_found dir (quiet_openDir _ _) id
      fun world knows => ?_) fun result facts => ?_
    · obtain ⟨seen, shows, ino, kind⟩ := (leads world knows).look
      refine ⟨by simp [FsCall.present, shows], ?_⟩
      simp only [FsCall.exec, shows, kind, ino]
    · cases result with
      | ok value => exact Task.yields_pure _ (by rw [facts.1 value rfl])
      | error error =>
          refine yields_ite (fun missing => ?_) fun _ => Task.yields_throw _
          exact absurd missing (facts.2 error rfl)
  · refine yields_ite (fun _ => ?_) fun _ => Task.yields_pure _ same
    exact Task.Yields.bind (yields_quiet (quiet_syncDir _)) fun _ _ => Task.yields_pure _ same

/-- Where the state directory is known it is the one that is found. -/
theorem openControl_finds {root : FsRoot} {outer dir : Ino} {create : Bool}
    (first : ∀ world, known world → world.Leads (host.slot root.dir ".weavatrix") outer)
    (second : ∀ world, known world → world.Leads (host.slot outer "worktree") dir) :
    Task.Yields (fsMachine host weather) allowed known (root.openControl create)
      fun found => found = some ⟨dir, root.device⟩ := by
  unfold openControl
  refine Task.Yields.bind (openOrCreateChild_finds first) fun found same => ?_
  subst same
  refine Task.Yields.bind (openOrCreateChild_finds second) fun found same => ?_
  subst same
  exact Task.yields_pure _ rfl

end

end FsRoot

end Worktree
