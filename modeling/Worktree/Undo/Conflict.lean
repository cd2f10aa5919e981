import Worktree.Crates.Plain
import Worktree.Filesystem.Calm
import Worktree.Undo.Rollback
/-
A rollback that finds a conflict: everything is compared with the receipt before
the first change, so that an error of the comparison leaves the world as it was.
-/

namespace Worktree

open CrashLogic

namespace Undo

variable {T : Type} {crates : Crates T} {host : Host} {control : ControlDir} {root : FsRoot}
  {options : WorktreeOptions} {world : World} {path : ReceiptPath} {α : Type}

/-! ### What the receipt and the tree say -/

/-- The evidence is what the entry shows. -/
def Tells (sha256 : Bytes → Sha256Hash) (view : Option Seen) : SlotEvidence → Prop
  | .absent => view = none
  | .present evidence => ∃ seen, view = some seen ∧ seen.inode.kind = .file ∧
      evidence = seen.evidence sha256

/-- The path leads from the root to this access. -/
def Resolves (crates : Crates T) (host : Host) (root : FsRoot) (world : World) (path : String)
    (access : TargetAccess) : Prop :=
  (root.openTarget crates path).run.run (fsKernel host) world = (.ok access, world)

/-- The path is in the state the receipt recorded after the commit. -/
def PathExact (crates : Crates T) (host : Host) (root : FsRoot) (world : World)
    (path : ReceiptPath) : Prop :=
  ∃ access, Resolves crates host root world path.path access ∧
    Tells crates.sha256 (world.look (access.slot host)) path.after

/-- The backup, if the receipt names one, is in the state the receipt recorded. -/
def BackupExact (crates : Crates T) (host : Host) (control : ControlDir) (world : World)
    (path : ReceiptPath) : Prop :=
  ∀ name expected, path.backupName = some name → path.backup = some expected →
    Tells crates.sha256 (world.look (host.slot control.dir name)) (.present expected)

/-- Nothing forbids reading the path and its backup: they are single-link files of
the worktree's file system within the limits, and the target may be written. -/
structure Inspectable (crates : Crates T) (host : Host) (root : FsRoot) (control : ControlDir)
    (options : WorktreeOptions) (world : World) (path : ReceiptPath) : Prop where
  target : ∀ access, Resolves crates host root world path.path access →
    Readable root.device options.maxBytes (world.look (access.slot host))
  backup : ∀ name, path.backupName = some name → validateArtifactName name = .ok () ∧
    ∀ seen, world.look (host.slot control.dir name) = some seen →
      seen.File control.device ∧ seen.links = 1 ∧ Fits options.limits.maxSourceBytesPerFile seen

/-! ### The comparison -/

theorem run_orElse {action : Io α} {result : Except IoError α} {after : World}
    (wrap : IoError → WorktreeError)
    (ran : action.run.run (fsKernel host) world = (result, after)) :
    (orElse action wrap).run.run (fsKernel host) world = (result.mapError wrap, after) := by
  unfold orElse
  rw [Task.run_except_adapt, ran]

theorem tells_of_shows {device : Nat} {view : Option Seen} {evidence : SlotEvidence}
    (shows : Shows crates.sha256 device view evidence) : Tells crates.sha256 view evidence := by
  cases evidence with
  | absent => exact shows
  | present evidence =>
      obtain ⟨seen, found, plain, same⟩ := shows
      exact ⟨seen, found, plain.file.1, same⟩

/-- What an entry shows is one thing. -/
theorem tells_unique {device : Nat} {view : Option Seen} {actual expected : SlotEvidence}
    (shows : Shows crates.sha256 device view actual) (tells : Tells crates.sha256 view expected) :
    actual = expected := by
  cases actual with
  | absent =>
      cases expected with
      | absent => rfl
      | present evidence =>
          obtain ⟨seen, found, _⟩ := tells
          rw [show view = none from shows] at found
          cases found
  | present evidence =>
      obtain ⟨seen, found, _, rfl⟩ := shows
      cases expected with
      | absent =>
          rw [show view = none from tells] at found
          cases found
      | present expected =>
          obtain ⟨other, there, _, rfl⟩ := tells
          rw [found] at there
          cases there
          rfl

/-- How a comparison ends that leaves the world alone. -/
structure Compares (host : Host) (world : World) (program : Action α) (exact able : Prop) :
    Prop where
  ends : ∃ result, program.run.run (fsKernel host) world = (result, world) ∧
    (∀ value, result = .ok value → exact) ∧
    ∀ error, result = .error error → error.recoveryRequired = false ∧ ¬ (exact ∧ able)

theorem compares_ok {program : Action α} {exact able : Prop} (value : α)
    (ran : program.run.run (fsKernel host) world = (.ok value, world)) (holds : exact) :
    Compares host world program exact able := by
  refine ⟨.ok value, ran, fun _ _ => holds, fun error impossible => ?_⟩
  cases impossible

theorem compares_error {program : Action α} {exact able : Prop} (error : WorktreeError)
    (ran : program.run.run (fsKernel host) world = (.error error, world))
    (unflagged : error.recoveryRequired = false) (apart : ¬ (exact ∧ able)) :
    Compares host world program exact able := by
  refine ⟨.error error, ran, fun value impossible => ?_, fun other same => ?_⟩
  · cases impossible
  · cases same
    exact ⟨unflagged, apart⟩

theorem verifyBackup_compares :
    Compares host world (verifyBackup crates control path options)
      (BackupExact crates host control world path)
      (Inspectable crates host root control options world path) := by
  unfold verifyBackup
  split
  · next name expected named recorded =>
      have learns : (control.backupEvidence crates.sha256 name
          options.limits.maxSourceBytesPerFile).run.Learns (fsMachine host .calm)
          (fun here => here = world) _ :=
        ControlDir.backupEvidenceWithLinks_learns crates.sha256 _ 1
          fun here (same : here = world) =>
            congrArg (World.look · (host.slot control.dir name)) same
      obtain ⟨result, ran, value, error⟩ := run_of_answers learns
      cases result with
      | ok actual =>
          obtain ⟨seen, shows, file, single, fits, rfl⟩ := value actual rfl
          by_cases same : seen.evidence crates.sha256 = expected
          · refine compares_ok () ?_ fun other evidence here there => ?_
            · rw [Task.run_except_ok _ (run_orElse _ ran), if_pos same]
              rfl
            · rw [named] at here
              rw [recorded] at there
              cases here
              cases there
              exact ⟨seen, shows, file.1, same.symm⟩
          · refine compares_error (conflict path
              "retained undo artifact does not match its receipt evidence") ?_ rfl
              fun both => same ?_
            · rw [Task.run_except_ok _ (run_orElse _ ran), if_neg same]
              rfl
            · obtain ⟨other, there, _, rfl⟩ := both.1 name expected named recorded
              rw [shows] at there
              cases there
              rfl
      | error failed =>
          refine compares_error _ (Task.run_except_error _ (run_orElse _ ran)) ?_
            fun both => error failed rfl ?_
          · dsimp only
            split <;> rfl
          · obtain ⟨seen, shows, _⟩ := both.1 name expected named recorded
            obtain ⟨valid, able⟩ := both.2.backup name named
            exact ⟨valid, seen, shows, able seen shows⟩
  · next absent =>
      refine compares_ok () rfl fun name expected named recorded => ?_
      exact absurd recorded (absent name expected named)

theorem openTarget_run (crates : Crates T) (host : Host) (root : FsRoot) (world : World)
    (name : String) :
    ∃ result, (root.openTarget crates name).run.run (fsKernel host) world = (result, world) ∧
      ∀ access, result = .ok access → access.rootDevice = root.device := by
  have reads : Reads host .calm (root.openTarget crates name) _ := openTarget_reads root name
  obtain ⟨result, ran, good⟩ := run_of_reads reads world
  exact ⟨result, ran, fun access opened => (good access opened).2.1⟩

theorem verifyReceiptPath_compares :
    Compares host world (verifyReceiptPath crates control root options path)
      (PathExact crates host root world path ∧ BackupExact crates host control world path)
      (Inspectable crates host root control options world path) := by
  unfold verifyReceiptPath
  obtain ⟨opened, ran, onDevice⟩ := openTarget_run crates host root world path.path
  cases opened with
  | error failed =>
      refine compares_error _ (Task.run_except_error _ (run_orElse _ ran)) rfl fun both => ?_
      obtain ⟨access, resolves, _⟩ := both.1.1
      unfold Resolves at resolves
      rw [ran] at resolves
      cases resolves
  | ok access =>
      have device := onDevice access rfl
      have unique : ∀ other, Resolves crates host root world path.path other → other = access := by
        intro other resolves
        unfold Resolves at resolves
        rw [ran] at resolves
        cases resolves
        rfl
      obtain ⟨found, read, value, error⟩ := run_of_answers
        (access.slotEvidence_learns crates.sha256 options.maxBytes
          fun here (same : here = world) => congrArg (World.look · (access.slot host)) same)
      cases found with
      | error failed =>
          refine compares_error _ ((Task.run_except_ok _ (run_orElse _ ran)).trans
            (Task.run_except_error _ (run_orElse _ read))) rfl fun both => error failed rfl ?_
          rw [device]
          exact both.2.target access ran
      | ok actual =>
          have shows := value actual rfl
          by_cases same : actual = path.after
          · have exact_ : PathExact crates host root world path :=
              ⟨access, ran, same ▸ tells_of_shows shows⟩
            have backup : Compares host world (verifyBackup crates control path options)
                (BackupExact crates host control world path)
                (Inspectable crates host root control options world path) := verifyBackup_compares
            obtain ⟨result, verified, kept, refused⟩ := backup.ends
            cases result with
            | ok done =>
                refine compares_ok access ?_ ⟨exact_, kept done rfl⟩
                rw [Task.run_except_ok _ (run_orElse _ ran),
                  Task.run_except_ok _ (run_orElse _ read),
                  if_neg (not_not_intro same), Task.run_except_ok _ verified]
                rfl
            | error failed =>
                obtain ⟨unflagged, apart⟩ := refused failed rfl
                refine compares_error failed ?_ unflagged fun both =>
                  apart ⟨both.1.2, both.2⟩
                rw [Task.run_except_ok _ (run_orElse _ ran),
                  Task.run_except_ok _ (run_orElse _ read),
                  if_neg (not_not_intro same), Task.run_except_error _ verified]
          · refine compares_error (conflict path
              "retained path no longer matches its exact committed state") ?_ rfl
              fun both => same ?_
            · rw [Task.run_except_ok _ (run_orElse _ ran), Task.run_except_ok _ (run_orElse _ read),
                if_pos same]
              rfl
            · obtain ⟨other, resolves, tells⟩ := both.1.1
              rw [unique other resolves] at tells
              exact tells_unique shows tells

/-- The comparison ends well just when every path and backup is exact, as long as
they can be inspected; it never changes anything or asks for a recovery. -/
theorem verifyReceiptState_compares (paths : List ReceiptPath) :
    Compares host world (verifyReceiptState crates control root options paths)
      (∀ path ∈ paths, PathExact crates host root world path ∧
        BackupExact crates host control world path)
      (∀ path ∈ paths, Inspectable crates host root control options world path) := by
  induction paths with
  | nil =>
      refine compares_ok [] rfl fun _ impossible => ?_
      cases impossible
  | cons path rest ih =>
      unfold verifyReceiptState
      have head : Compares host world (verifyReceiptPath crates control root options path)
          (PathExact crates host root world path ∧ BackupExact crates host control world path)
          (Inspectable crates host root control options world path) := verifyReceiptPath_compares
      obtain ⟨first, ran, kept, refused⟩ := head.ends
      cases first with
      | error failed =>
          obtain ⟨unflagged, apart⟩ := refused failed rfl
          exact compares_error _ (Task.run_except_error _ ran) unflagged fun both => apart
            ⟨both.1 path List.mem_cons_self, both.2 path List.mem_cons_self⟩
      | ok access =>
          obtain ⟨others, compared, keeps, refuses⟩ := ih.ends
          cases others with
          | error failed =>
              obtain ⟨unflagged, apart⟩ := refuses failed rfl
              refine compares_error _ ((Task.run_except_ok _ ran).trans
                (Task.run_except_error _ compared)) unflagged fun both => apart ⟨?_, ?_⟩
              · exact fun path among => both.1 path (List.mem_cons_of_mem _ among)
              · exact fun path among => both.2 path (List.mem_cons_of_mem _ among)
          | ok accesses =>
              refine compares_ok (access :: accesses) ?_ fun path among => ?_
              · rw [Task.run_except_ok _ ran, Task.run_except_ok _ compared]
                rfl
              · rcases List.mem_cons.mp among with rfl | later
                · exact kept access rfl
                · exact keeps accesses rfl path later

/-! ### Sessions -/

/-- Nobody holds the root lock and no journal is pending. -/
structure Ready (host : Host) (root : FsRoot) (world : World) (control : ControlDir) : Prop where
  houses : root.Houses host world control
  unlocked : ∃ seen, world.look (host.slot control.dir "lock") = some seen ∧
    seen.inode.kind = .file ∧ seen.ino ∉ world.locks
  idle : ∀ name ∈ [legacyJournal, operationJournal, legacyOperationJournal, undoJournal],
    world.look (host.slot control.dir name) = none

/-- The receipt is stored under its identifier, and reads as this. -/
structure StoredAs (crates : Crates T) (host : Host) (control : ControlDir)
    (options : WorktreeOptions) (world : World) (id : UndoId) (receipt : StoredReceipt)
    (seen : Seen) : Prop where
  shows : world.look (host.slot control.dir (undoPrefix ++ id.value ++ undoSuffix)) = some seen
  file : seen.inode.kind = .file
  short : seen.inode.bytes.length ≤ options.limits.maxJournalBytes
  decodes : decodeReceipt crates id.value options seen.inode.bytes = .ok receipt

theorem ensureNoPending_run (idle : ∀ name ∈ [legacyJournal, operationJournal,
    legacyOperationJournal, undoJournal], world.look (host.slot control.dir name) = none) :
    (ensureNoPending control).run.run (fsKernel host) world = (.ok (), world) := by
  have edit : control.openJournal.run.run (fsKernel host) world = (.ok none, world) :=
    ControlDir.openNamedJournal_absent (idle legacyJournal (by simp))
  have operation := ControlDir.openOperationJournal_absent
    (idle operationJournal (by simp)) (idle legacyOperationJournal (by simp))
  have undo : control.openUndoJournal.run.run (fsKernel host) world = (.ok none, world) :=
    ControlDir.openNamedJournal_absent (idle undoJournal (by simp))
  unfold ensureNoPending
  rw [Task.run_except_ok _ (run_orElse _ edit)]
  simp only [Option.isSome_none, Bool.false_eq_true, if_false]
  rw [Task.run_except_ok _ (run_orElse _ operation)]
  simp only [Option.isSome_none, Bool.false_eq_true, if_false]
  rw [Task.run_except_ok _ (run_orElse _ undo)]
  rfl

/-- A body that is in order is read back from its receipt. -/
theorem decodeReceipt_encode {id : String} {body : ReceiptBody} (schema_ : body.schema = schema)
    (named : body.transactionId = id) (some_ : body.paths ≠ [])
    (few : body.paths.length ≤ options.limits.maxFiles)
    (valid : validateReceiptPaths crates id 0 none 0 body.paths = .ok body.retainedBytes)
    (before : body.beforeFingerprint = snapshot crates body.paths true)
    (after : body.afterFingerprint = snapshot crates body.paths false) :
    decodeReceipt crates id options (crates.receipt.encode ⟨body, bodyChecksum crates body⟩) =
      .ok ⟨body, bodyChecksum crates body,
        (crates.receipt.encode ⟨body, bodyChecksum crates body⟩).length⟩ := by
  have aggregate : validateBody crates body options = .ok () := by
    unfold validateBody
    rw [if_neg (by simp [some_, few]), named, valid]
    change (if _ then _ else _ : Except WorktreeError Unit) = _
    rw [if_neg (by simp [before, after])]
    rfl
  unfold decodeReceipt
  rw [crates.receipt.decode_encode]
  change (if _ then _ else _ : Except WorktreeError StoredReceipt) = _
  rw [if_neg (by simp [schema_, named]), aggregate]
  rfl

theorem undoName_id (id : UndoId) :
    undoName id.value = .ok (undoPrefix ++ id.value ++ undoSuffix) := by
  unfold undoName validateUndoId
  rw [if_pos id.valid]
  rfl

theorem readExact_run {id : UndoId} {receipt : StoredReceipt} {seen : Seen}
    (stored : StoredAs crates host control options world id receipt seen) :
    (readExact crates control id.value options).run.run (fsKernel host) world =
      (.ok (some receipt), world) := by
  have opened : (control.openUndoReceipt id.value).run.run (fsKernel host) world =
      (.ok (some seen.ino), world) := by
    unfold ControlDir.openUndoReceipt
    rw [undoName_id]
    exact ControlDir.openNamedJournal_present stored.shows stored.file
  have found := seen_of_look stored.shows
  have measured : (FsCall.metadata seen.ino).exec host world = (.ok seen.metadata, world) := by
    simp only [FsCall.exec, found]
  have whole : (FsCall.read seen.ino (options.limits.maxJournalBytes + 1)).exec host world =
      (.ok seen.inode.bytes, world) := by
    simp only [FsCall.exec, inode_of_look stored.shows, stored.file]
    rw [if_neg FileKind.noConfusion, take_whole stored.short]
  have small : ¬ seen.inode.bytes.length > options.limits.maxJournalBytes :=
    Nat.not_lt_of_le stored.short
  have bounded : ¬ (decide (seen.metadata.kind ≠ .file) ||
      decide (seen.metadata.length > options.limits.maxJournalBytes)) = true := by
    simp only [Bool.or_eq_true, decide_eq_true_eq, not_or, not_not]
    exact ⟨stored.file, small⟩
  unfold readExact
  have read : (readReceipt crates seen.ino id.value options).run.run (fsKernel host) world =
      (.ok receipt, world) := by
    unfold readReceipt
    rw [Task.run_except_ok _ (run_orElse _ (run_perform measured)), if_neg bounded,
      Task.run_except_ok _ (run_orElse _ (run_perform whole)), if_neg small, stored.decodes]
    rfl
  rw [Task.run_except_ok _ (run_orElse _ opened)]
  dsimp only
  rw [Task.run_except_ok _ read]
  rfl

theorem inspect_run {id : UndoId} {receipt : StoredReceipt} {seen : Seen}
    (stored : StoredAs crates host control options world id receipt seen) :
    (inspect crates control id options).run.run (fsKernel host) world = (.ok receipt, world) := by
  unfold inspect
  exact (Task.run_except_ok _ (readExact_run stored)).trans rfl

theorem holding_run (file : Ino) (action : Action α) :
    (holding file action).run.run (fsKernel host) world =
      ((action.run.run (fsKernel host) world).1,
        World.locked (action.run.run (fsKernel host) world).2
          ((action.run.run (fsKernel host) world).2.locks.filter (· ≠ file))) := by
  unfold holding
  rw [ExceptT.run_mk, CrashLogic.Task.run_bind]
  rfl

/-- A session runs under the lock, which is released when it is over. -/
theorem openSession_run (ready : Ready host root world control)
    (closed : Except WorktreeError α) (session : ControlDir → Action α) :
    ∃ lock, lock ∉ world.locks ∧
      (openSession root closed session).run.run (fsKernel host) world =
        (((session control).run.run (fsKernel host) (world.locked (lock :: world.locks))).1,
          World.locked ((session control).run.run (fsKernel host)
            (world.locked (lock :: world.locks))).2
            (((session control).run.run (fsKernel host)
              (world.locked (lock :: world.locks))).2.locks.filter (· ≠ lock))) := by
  obtain ⟨seen, shows, file, free⟩ := ready.unlocked
  refine ⟨seen.ino, free, ?_⟩
  have opened : control.openLock.run.run (fsKernel host) world = (.ok seen.ino, world) := by
    have executes : (FsCall.openFile control.dir "lock" .create).exec host world =
        (.ok seen.ino, world) := by
      simp only [FsCall.exec, FsCall.execOpen, shows, file]
    exact run_perform executes
  have locks : (FsCall.tryLock seen.ino).exec host world =
      (.ok true, world.locked (seen.ino :: world.locks)) := by
    simp only [FsCall.exec, if_neg free]
    rfl
  have pending : (ensureNoPending control).run.run (fsKernel host)
      (world.locked (seen.ino :: world.locks)) = (.ok (), world.locked (seen.ino :: world.locks)) :=
    ensureNoPending_run ready.idle
  unfold openSession
  rw [Task.run_except_ok _ (run_orElse _ (FsRoot.openControl_run ready.houses))]
  dsimp only
  rw [Task.run_except_ok _ (run_orElse _ opened)]
  have tried : (ExceptT.lift (perform (.tryLock seen.ino)).run :
      Action (Except IoError Bool)).run.run (fsKernel host) world =
      (.ok (.ok true), world.locked (seen.ino :: world.locks)) := by
    rw [Task.run_except_lift, run_perform locks]
  rw [Task.run_except_ok _ tried]
  dsimp only
  rw [holding_run, Task.run_except_ok _ pending]

/-! ### The whole call -/

theorem resolves_locked (locks : List Ino) (name : String) (access : TargetAccess) :
    Resolves crates host root (world.locked locks) name access ↔
      Resolves crates host root world name access := by
  obtain ⟨result, ran, _⟩ := openTarget_run crates host root world name
  unfold Resolves
  rw [run_locked (openTarget_reads root name), ran]
  constructor
  · intro same
    have answer : result = .ok access := (Prod.mk.inj same).1
    rw [answer]
  · intro same
    have answer : result = .ok access := (Prod.mk.inj same).1
    rw [answer]

theorem pathExact_locked (locks : List Ino) :
    PathExact crates host root (world.locked locks) path ↔
      PathExact crates host root world path := by
  unfold PathExact
  simp only [resolves_locked, World.locked_look]

theorem inspectable_locked (locks : List Ino)
    (able : Inspectable crates host root control options world path) :
    Inspectable crates host root control options (world.locked locks) path where
  target := fun access resolves => able.target access ((resolves_locked locks _ _).mp resolves)
  backup := able.backup

theorem filter_taken {lock : Ino} {locks : List Ino} (free : lock ∉ locks) :
    (lock :: locks).filter (· ≠ lock) = locks := by
  rw [List.filter_cons_of_neg (by simp), List.filter_eq_self]
  intro other holds
  rw [decide_eq_true_eq]
  rintro rfl
  exact free holds

/-- The comparison finds out about the world, whoever holds its locks. -/
theorem verifyReceiptState_locked (paths : List ReceiptPath) (locks : List Ino) :
    Compares host (world.locked locks) (verifyReceiptState crates control root options paths)
      (∀ path ∈ paths, PathExact crates host root world path ∧
        BackupExact crates host control world path)
      (∀ path ∈ paths, Inspectable crates host root control options world path) := by
  have compares : Compares host (world.locked locks)
      (verifyReceiptState crates control root options paths)
      (∀ path ∈ paths, PathExact crates host root (world.locked locks) path ∧
        BackupExact crates host control (world.locked locks) path)
      (∀ path ∈ paths, Inspectable crates host root control options (world.locked locks) path) :=
    verifyReceiptState_compares paths
  obtain ⟨result, ran, exact_, refused⟩ := compares.ends
  refine ⟨result, ran, fun value same path among => ?_, fun error same => ?_⟩
  · obtain ⟨kept, backed⟩ := exact_ value same path among
    exact ⟨(pathExact_locked _).mp kept, backed⟩
  · obtain ⟨unflagged, apart⟩ := refused error same
    refine ⟨unflagged, fun both => apart ⟨fun path among => ?_, fun path among => ?_⟩⟩
    · exact ⟨(pathExact_locked locks).mpr (both.1 path among).1, (both.1 path among).2⟩
    · exact inspectable_locked locks (both.2 path among)

theorem undoRollback_refused {id : UndoId} {receipt : StoredReceipt} {seen : Seen}
    (ready : Ready host root world control)
    (stored : StoredAs crates host control options world id receipt seen)
    (among : path ∈ receipt.paths)
    (differs : ¬ PathExact crates host root world path ∨
      ¬ BackupExact crates host control world path) :
    ∃ error, (undoRollback crates root options id).run.run (fsKernel host) world =
      (.error error, world) ∧ error.recoveryRequired = false := by
  obtain ⟨lock, free, ran⟩ := openSession_run ready (.error notFound) fun control => do
    let stored ← inspect crates control id options
    rollback crates control root stored options
  have found : StoredAs crates host control options (world.locked (lock :: world.locks)) id
      receipt seen := ⟨stored.shows, stored.file, stored.short, stored.decodes⟩
  have compares : Compares host (world.locked (lock :: world.locks))
      (verifyReceiptState crates control root options receipt.paths) _ _ :=
    verifyReceiptState_locked receipt.paths _
  obtain ⟨result, compared, exact_, refused⟩ := compares.ends
  cases result with
  | ok accesses =>
      obtain ⟨kept, backed⟩ := exact_ accesses rfl path among
      rcases differs with moved | changed
      · exact absurd kept moved
      · exact absurd backed changed
  | error error =>
      have ended : (do
          let stored ← inspect crates control id options
          rollback crates control root stored options : Action UndoRollbackReport).run.run
            (fsKernel host) (world.locked (lock :: world.locks)) =
          (.error error, world.locked (lock :: world.locks)) := by
        rw [Task.run_except_ok _ (inspect_run found)]
        unfold rollback
        rw [Task.run_except_error _ compared]
      refine ⟨error, ?_, (refused error rfl).1⟩
      unfold undoRollback
      rw [ran, ended]
      change (_, world.locked ((lock :: world.locks).filter (· ≠ lock))) = _
      rw [filter_taken free]
      rfl

/-- A conflict anywhere ends the rollback with nothing changed; without one, and
when everything may be read, the comparison succeeds. -/
theorem undoRollback_conflict {id : UndoId} {receipt : StoredReceipt} {seen : Seen}
    (ready : Ready host root world control)
    (stored : StoredAs crates host control options world id receipt seen) :
    ((∃ path ∈ receipt.paths, ¬ PathExact crates host root world path ∨
        ¬ BackupExact crates host control world path) →
      ∃ error, (undoRollback crates root options id).run.run (fsKernel host) world =
        (.error error, world) ∧ error.recoveryRequired = false) ∧
    ((∀ path ∈ receipt.paths, PathExact crates host root world path ∧
        BackupExact crates host control world path ∧
        Inspectable crates host root control options world path) →
      ∀ locks, ∃ accesses, (verifyReceiptState crates control root options
        receipt.paths).run.run (fsKernel host) (world.locked locks) =
          (.ok accesses, world.locked locks)) := by
  constructor
  · rintro ⟨path, among, differs⟩
    exact undoRollback_refused ready stored among differs
  · intro exact_ locks
    have compares : Compares host (world.locked locks)
        (verifyReceiptState crates control root options receipt.paths) _ _ :=
      verifyReceiptState_locked receipt.paths locks
    obtain ⟨result, compared, _, refused⟩ := compares.ends
    cases result with
    | ok accesses => exact ⟨accesses, compared⟩
    | error error =>
        refine absurd ⟨fun path among => ?_, fun path among => ?_⟩ (refused error rfl).2
        · exact ⟨(exact_ path among).1, (exact_ path among).2.1⟩
        · exact (exact_ path among).2.2

/-! ### A file that got a second name -/

section Linked

theorem zeros_valid : isValidId "00000000000000000000000000000000" = true := by decide

def linkedId : UndoId := ⟨"00000000000000000000000000000000", zeros_valid⟩

/-- What a plan that created `a` left behind, with one byte in it. -/
def createdPath : ReceiptPath :=
  { index := 0
    path := "a"
    before := .absent
    after := .present
      { sha256 := Sha256.digest [120]
        bytes := 1
        identity := ⟨0, 5⟩
        permissions := .fromPermissions 0o644 }
    backupName := none
    backup := none }

def createdBody : ReceiptBody :=
  { schema
    transactionId := linkedId.value
    planFingerprint := Sha256.digest []
    beforeFingerprint := snapshot plainCrates [createdPath] true
    afterFingerprint := snapshot plainCrates [createdPath] false
    retainedBytes := 0
    paths := [createdPath] }

def createdBytes : Bytes :=
  plainCrates.receipt.encode ⟨createdBody, bodyChecksum plainCrates createdBody⟩

def createdReceipt : StoredReceipt :=
  ⟨createdBody, bodyChecksum plainCrates createdBody, createdBytes.length⟩

/-- The root, its state directory with a lock and the receipt, and one file under
the names that are given. -/
def linkedWorld (names : List String) : World :=
  .tree ([(⟨0, ".weavatrix"⟩, 1), (⟨1, "worktree"⟩, 2), (⟨2, "lock"⟩, 3),
      (⟨2, undoPrefix ++ linkedId.value ++ undoSuffix⟩, 4)] ++ names.map fun name => (⟨0, name⟩, 5))
    fun ino =>
      if ino ≤ 2 then ⟨.directory, 0, [], 0o755⟩
      else if ino = 4 then ⟨.file, 0, createdBytes, 0o644⟩
      else ⟨.file, 0, [120], 0o644⟩

def linkedRoot : FsRoot := ⟨0, 0⟩

def linkedControl : ControlDir := ⟨2, 0⟩

def storedSeen : Seen := ⟨4, ⟨.file, 0, createdBytes, 0o644⟩, 1⟩

theorem linkedWorld_ready {names : List String} (known : names = [] ∨ names = ["a", "b"]) :
    Ready .plain linkedRoot (linkedWorld names) linkedControl := by
  rcases known with rfl | rfl
  all_goals
    refine ⟨⟨rfl, 1, ⟨?_, ?_⟩, ⟨?_, ?_⟩⟩, ⟨⟨3, ⟨.file, 0, [120], 0o644⟩, 1⟩, ?_, rfl, ?_⟩, ?_⟩
    all_goals decide +kernel

theorem linkedWorld_stored {names : List String} (known : names = [] ∨ names = ["a", "b"]) :
    StoredAs plainCrates .plain linkedControl plainOptions (linkedWorld names) linkedId
      createdReceipt storedSeen := by
  have short : createdBytes.length ≤ plainOptions.limits.maxJournalBytes := by decide +kernel
  have decodes : decodeReceipt plainCrates linkedId.value plainOptions createdBytes =
      .ok createdReceipt :=
    decodeReceipt_encode rfl rfl (List.cons_ne_nil _ _) (by decide) (by decide +kernel)
      (by dsimp only [createdBody]) (by dsimp only [createdBody])
  have named : (linkedWorld names).table.lookup (Host.plain.slot linkedControl.dir
      (undoPrefix ++ linkedId.value ++ undoSuffix)) = some 4 := by
    rcases known with rfl | rfl
    all_goals decide +kernel
  have single : (linkedWorld names).table.links 4 = 1 := by
    rcases known with rfl | rfl
    all_goals decide +kernel
  refine ⟨World.look_eq_some_iff.mpr ⟨named, ?_⟩, rfl, short, decodes⟩
  exact congrArg (Seen.mk 4 ((linkedWorld names).inodes 4)) single

def linkedAccess : TargetAccess := ⟨0, "a", "a", 0, ⟨0, 0⟩⟩

theorem linkedWorld_resolves {names : List String} (known : names = [] ∨ names = ["a", "b"]) :
    Resolves plainCrates .plain linkedRoot (linkedWorld names) "a" linkedAccess := by
  have answer : ((linkedRoot.openTarget plainCrates "a").run.run (fsKernel .plain)
      (linkedWorld names)).1 = .ok linkedAccess := by
    rcases known with rfl | rfl
    all_goals decide +kernel
  obtain ⟨result, ran, _⟩ := openTarget_run plainCrates .plain linkedRoot (linkedWorld names) "a"
  unfold Resolves
  rw [ran] at answer ⊢
  rw [show result = .ok linkedAccess from answer]

/-- The created file is gone. -/
theorem undoRollback_conflict_gone :
    ∃ error, (undoRollback plainCrates linkedRoot plainOptions linkedId).run.run
      (fsKernel .plain) (linkedWorld []) = (.error error, linkedWorld []) ∧
        error.recoveryRequired = false := by
  refine (undoRollback_conflict (linkedWorld_ready (.inl rfl))
    (linkedWorld_stored (.inl rfl))).1 ⟨createdPath, List.mem_singleton_self _, .inl ?_⟩
  rintro ⟨access, resolves, tells⟩
  have same := resolves.symm.trans (linkedWorld_resolves (.inl rfl))
  cases (Prod.mk.inj same).1
  obtain ⟨seen, shows, _⟩ := tells
  have absent : (linkedWorld []).look (linkedAccess.slot .plain) = none := by decide +kernel
  rw [absent] at shows
  cases shows

/-- A second name changes nothing the receipt records, and still ends the comparison. -/
theorem linked_refused :
    Ready .plain linkedRoot (linkedWorld ["a", "b"]) linkedControl ∧
      StoredAs plainCrates .plain linkedControl plainOptions (linkedWorld ["a", "b"]) linkedId
        createdReceipt storedSeen ∧
      (∀ path ∈ createdReceipt.paths,
        PathExact plainCrates .plain linkedRoot (linkedWorld ["a", "b"]) path ∧
          BackupExact plainCrates .plain linkedControl (linkedWorld ["a", "b"]) path) ∧
      ∀ accesses finish, (verifyReceiptState plainCrates linkedControl linkedRoot plainOptions
        createdReceipt.paths).run.run (fsKernel .plain) (linkedWorld ["a", "b"]) ≠
          (.ok accesses, finish) := by
  refine ⟨linkedWorld_ready (.inr rfl), linkedWorld_stored (.inr rfl), ?_, ?_⟩
  · intro path among
    cases List.mem_singleton.mp among
    refine ⟨⟨linkedAccess, linkedWorld_resolves (.inr rfl),
      ⟨5, ⟨.file, 0, [120], 0o644⟩, 2⟩, ?_, rfl, ?_⟩, ?_⟩
    · decide +kernel
    · decide +kernel
    · intro name expected named
      cases named
  · intro accesses finish ran
    have refused : ((verifyReceiptState plainCrates linkedControl linkedRoot plainOptions
        createdReceipt.paths).run.run (fsKernel .plain) (linkedWorld ["a", "b"])).1.toBool =
          false := by decide +kernel
    rw [ran] at refused
    cases refused

end Linked

end Undo

end Worktree
