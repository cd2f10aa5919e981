import Worktree.Filesystem.Changing
import Worktree.Operation.Naming
import Worktree.Undo.Conflict
/-
Discarding a receipt: its backups are removed one after the other, each compared
with the receipt just before, and then the receipt itself.

Whatever fails, nothing else is lost. A backup that is gone ends every later
discard and every rollback, so a discard restarts only while nothing is gone.
-/

namespace Worktree

open CrashLogic

/-- Some of these entries are gone, and the others are as they were. -/
def World.Lost (slots : Slot → Prop) (start finish : World) : Prop :=
  ∀ slot, finish.look slot = start.look slot ∨ (slots slot ∧ finish.look slot = none)

namespace World

variable {slots slots' : Slot → Prop} {start middle finish world : World} {slot : Slot}
  {seen : Seen}

theorem Lost.refl (world : World) : World.Lost slots world world := fun _ => .inl rfl

theorem Lost.trans (first : World.Lost slots start middle)
    (second : World.Lost slots middle finish) : World.Lost slots start finish := by
  intro slot
  rcases second slot with same | gone
  · rcases first slot with kept | lost
    · exact .inl (same.trans kept)
    · exact .inr ⟨lost.1, same.trans lost.2⟩
  · exact .inr gone

theorem Lost.mono (lost : World.Lost slots start finish) (more : ∀ slot, slots slot → slots' slot) :
    World.Lost slots' start finish := fun slot =>
  (lost slot).imp_right fun gone => ⟨more slot gone.1, gone.2⟩

theorem Lost.kept (lost : World.Lost slots start finish) (spared : ¬ slots slot) :
    finish.look slot = start.look slot := by
  rcases lost slot with same | gone
  · exact same
  · exact absurd gone.1 spared

theorem Lost.absent (lost : World.Lost slots start finish) (absent : start.look slot = none) :
    finish.look slot = none := by
  rcases lost slot with same | gone
  · exact same.trans absent
  · exact gone.2

theorem lost_unlink (shows : world.look slot = some seen) (single : seen.links = 1)
    (among : slots slot) : World.Lost slots world (world.unlink slot) := by
  intro other
  by_cases same : other = slot
  · subst same
    exact .inr ⟨among, look_unlink_self⟩
  · exact .inl (look_unlink_of_single shows single same)

end World

section

variable {host : Host} {weather : Weather} {world : World} {control : ControlDir} {name : String}
  {slots : Slot → Prop}

/-- A removal takes the name away or leaves everything as it was. -/
theorem removeFile_step {dir : Ino} {answer : Except IoError Unit} {finish : World}
    (stepped : (fsMachine host weather).step (.io (.removeFile dir name)) world answer finish) :
    finish = world ∨ finish = world.unlink (host.slot dir name) :=
  FsCall.Effect.removed (FsCall.step_effect stepped) rfl

/-- A file of the state directory that a discard may take. -/
def Removable (control : ControlDir) (view : Option Seen) : Prop :=
  ∃ seen, view = some seen ∧ seen.File control.device ∧ seen.links = 1

theorem safeBackupIdentity_learns {known : World → Prop} {view : Option Seen}
    (sees : ∀ world, known world → world.look (host.slot control.dir name) = view) :
    (control.safeBackupIdentity name 1).run.Learns (fsMachine host weather) known
      (Answers weather (fun _ => Removable control view)
        (validateArtifactName name = .ok () ∧ Removable control view) (view = none)) := by
  unfold ControlDir.safeBackupIdentity
  refine TargetAccess.learns_artifactName And.left ?_
  refine learns_symlinkMetadata sees (fun seen shows => ?_) (fun gone => ?_)
    fun fails error absent => answers_fault fails absent
  · cases safe : control.safeBackupMetadata seen.metadata 1 with
    | ok identity =>
        have proper := (ControlDir.safeBackupMetadata_iff seen 1).mp ⟨identity, safe⟩
        exact ⟨seen, shows, proper.1, proper.2⟩
    | error error =>
        obtain ⟨improper, kind⟩ := ControlDir.safeBackupMetadata_error safe
        refine answers_refused ?_ kind
        rintro ⟨_, found, shown, file, single⟩
        cases shows.symm.trans shown
        exact improper ⟨file, single⟩
  · refine ⟨fun clear => ?_, fun _ => gone⟩
    obtain ⟨_, seen, shown, _⟩ := clear
    rw [gone] at shown
    cases shown

/-- How a backup is removed: it goes, or it was not there, or a call fails. -/
def Removed (weather : Weather) (control : ControlDir) (name : String) (slot : Slot)
    (start : World) : Except IoError Bool → World → Prop
  | .ok true, finish => finish.look slot = none
  | .ok false, _ => start.look slot = none
  | .error _, _ => validateArtifactName name = .ok () ∧ Removable control (start.look slot) →
      weather.fails

theorem removeBackup_meets (among : slots (host.slot control.dir name)) :
    (control.removeBackup name).run.Meets (fsMachine host weather)
      ((fsMachine host weather).Survives (World.Lost slots world))
      (fun result finish => finish.locks = world.locks ∧ World.Lost slots world finish ∧
        Removed weather control name (host.slot control.dir name) world result finish) world := by
  have here : World.Lost slots world world := World.Lost.refl world
  have admits : (fsMachine host weather).Admits ((fsMachine host weather).Survives
      (World.Lost slots world)) world := Machine.admits_survives here
  unfold ControlDir.removeBackup
  refine meets_liftExcept (fun _ valid => ?_) fun error invalid => ⟨rfl, here, ?_⟩
  · rw [Task.meets_except_bind, attempt, Task.meets_except_lift]
    have learns : (control.safeBackupIdentity name 1).run.Learns (fsMachine host weather)
        (fun found => found = world) _ :=
      safeBackupIdentity_learns fun found (same : found = world) =>
        congrArg (World.look · (host.slot control.dir name)) same
    refine (learns.meets admits).mono ?_
    rintro result middle ⟨rfl, answered⟩
    cases result with
    | ok identity =>
        obtain ⟨seen, shows, file, single⟩ := answered
        have taken : World.Lost slots middle (middle.unlink (host.slot control.dir name)) :=
          World.lost_unlink shows single among
        have either : ∀ finish, finish = middle ∨
            finish = middle.unlink (host.slot control.dir name) →
            finish.locks = middle.locks ∧ World.Lost slots middle finish := by
          rintro finish (rfl | rfl)
          · exact ⟨rfl, here⟩
          · exact ⟨rfl, taken⟩
        have plain : ¬ seen.inode.kind = .directory := by
          rw [file.1]
          exact FileKind.noConfusion
        dsimp only
        rw [Task.meets_except_bind]
        refine ⟨⟨here, fun _ => False.elim⟩, fun answer finish stepped => ?_⟩
        obtain ⟨locks, lost⟩ := either finish (removeFile_step stepped)
        cases answer with
        | ok done =>
            rcases stepped with executed | ⟨_, _, impossible, _⟩
            · simp only [FsCall.exec, shows, if_neg plain] at executed
              cases executed
              have failed : weather.fails → ∀ error,
                  (middle.unlink (host.slot control.dir name)).locks = middle.locks ∧
                    World.Lost slots middle (middle.unlink (host.slot control.dir name)) ∧
                    Removed weather control name (host.slot control.dir name) middle
                      (.error error) (middle.unlink (host.slot control.dir name)) :=
                fun fails error => ⟨rfl, lost, fun _ => fails⟩
              change (perform (.syncDir control.dir) >>= fun _ =>
                (pure true : Io Bool)).run.Meets _ _ _ _
              exact meets_call (fun _ => id) ⟨lost, fun _ => False.elim⟩
                ⟨rfl, lost, World.look_unlink_self⟩ fun fails error =>
                  ⟨failed fails error, failed fails error⟩
            · cases impossible
        | error error =>
            refine ⟨locks, lost, fun _ => ?_⟩
            rcases stepped with executed | ⟨fails, _⟩
            · simp only [FsCall.exec, shows, if_neg plain] at executed
              cases executed
            · exact fails
    | error error =>
        dsimp only
        by_cases missing : error.kind = .notFound
        · rw [if_pos missing]
          exact ⟨rfl, here, answered.2 missing⟩
        · rw [if_neg missing]
          exact ⟨rfl, here, answered.1⟩
  · rintro ⟨valid, _⟩
    rw [valid] at invalid
    cases invalid

end

namespace Undo

variable {T : Type} {crates : Crates T} {host : Host} {weather : Weather} {world : World}
  {control : ControlDir} {options : WorktreeOptions} {slots : Slot → Prop} {path : ReceiptPath}
  {paths : List ReceiptPath} {name : String}

/-! ### One path -/

/-- The backup, if there is one, is there as it was recorded, and may be taken. -/
def BackupIntact (crates : Crates T) (host : Host) (control : ControlDir)
    (options : WorktreeOptions) (world : World) (path : ReceiptPath) : Prop :=
  ∀ name, path.backupName = some name → validateArtifactName name = .ok () ∧
    ∃ seen, world.look (host.slot control.dir name) = some seen ∧ seen.File control.device ∧
      seen.links = 1 ∧ Fits options.limits.maxSourceBytesPerFile seen ∧
      path.backup = some (seen.evidence crates.sha256)

/-- The entries of the backups of these paths. -/
def BackupSlots (host : Host) (control : ControlDir) (paths : List ReceiptPath) (slot : Slot) :
    Prop :=
  ∃ path ∈ paths, ∃ name, path.backupName = some name ∧ host.slot control.dir name = slot

/-- The backup was there and is gone now; an error needs a fault of some kind. -/
def Discarded (crates : Crates T) (host : Host) (weather : Weather) (control : ControlDir)
    (options : WorktreeOptions) (path : ReceiptPath) (start : World) :
    Except WorktreeError Nat → World → Prop
  | .ok _, finish => ∀ name, path.backupName = some name →
      start.look (host.slot control.dir name) ≠ none ∧
        finish.look (host.slot control.dir name) = none
  | .error _, _ => BackupIntact crates host control options start path → weather.fails

theorem discardPath_meets (position : Nat)
    (among : ∀ name, path.backupName = some name → slots (host.slot control.dir name)) :
    (discardPath crates control options path position).run.Meets (fsMachine host weather)
      ((fsMachine host weather).Survives (World.Lost slots world))
      (fun result finish => finish.locks = world.locks ∧ World.Lost slots world finish ∧
        Discarded crates host weather control options path world result finish) world := by
  have here : World.Lost slots world world := World.Lost.refl world
  have admits : (fsMachine host weather).Admits ((fsMachine host weather).Survives
      (World.Lost slots world)) world := Machine.admits_survives here
  unfold discardPath
  split
  · next absent =>
      refine ⟨rfl, here, fun name named => ?_⟩
      rw [absent] at named
      cases named
  · next name named =>
      cases recorded : path.backup with
      | none =>
          refine ⟨rfl, here, fun intact => ?_⟩
          obtain ⟨_, _, _, _, _, _, kept⟩ := intact name named
          rw [recorded] at kept
          cases kept
      | some expected =>
          have learns : (control.backupEvidence crates.sha256 name
              options.limits.maxSourceBytesPerFile).run.Learns (fsMachine host weather)
              (fun found => found = world) _ :=
            ControlDir.backupEvidenceWithLinks_learns crates.sha256 _ 1
              fun found (same : found = world) =>
                congrArg (World.look · (host.slot control.dir name)) same
          change (orElse _ _ >>= _ : Action Nat).run.Meets _ _ _ _
          unfold orElse
          rw [Task.meets_except_bind, Task.meets_except_adapt]
          refine (learns.meets admits).mono ?_
          rintro result middle ⟨rfl, answered⟩
          cases result with
          | error error =>
              refine ⟨rfl, here, fun intact => answered.1 ?_⟩
              obtain ⟨valid, seen, shows, file, single, fits, _⟩ := intact name named
              exact ⟨valid, seen, shows, file, single, fits⟩
          | ok actual =>
              obtain ⟨seen, shows, file, single, fits, rfl⟩ := answered
              dsimp only [Except.mapError]
              by_cases same : seen.evidence crates.sha256 = expected
              · rw [if_neg (not_not_intro same), Task.meets_except_bind, Task.meets_except_adapt]
                refine (removeBackup_meets (among name named)).mono ?_
                rintro result finish ⟨locks, lost, removed⟩
                cases result with
                | error error =>
                    refine ⟨locks, lost, fun intact => removed ⟨(intact name named).1, ?_⟩⟩
                    exact ⟨seen, shows, file, single⟩
                | ok taken =>
                    refine ⟨locks, lost, fun other found => ?_⟩
                    rw [named] at found
                    cases found
                    refine ⟨?_, ?_⟩
                    · rw [shows]
                      exact Option.some_ne_none seen
                    · cases taken with
                      | true => exact removed
                      | false =>
                          have absent : middle.look (host.slot control.dir name) = none := removed
                          rw [shows] at absent
                          cases absent
              · rw [if_pos same]
                refine ⟨rfl, here, fun intact => absurd ?_ same⟩
                obtain ⟨_, other, there, _, _, _, kept⟩ := intact name named
                rw [shows] at there
                cases there
                rw [recorded] at kept
                exact (Option.some.inj kept).symm

/-! ### All paths -/

/-- No two paths share a backup. -/
def Apart (host : Host) (control : ControlDir) (paths : List ReceiptPath) : Prop :=
  paths.Pairwise fun first second => ∀ name other, first.backupName = some name →
    second.backupName = some other → host.slot control.dir name ≠ host.slot control.dir other

def AllDiscarded (crates : Crates T) (host : Host) (weather : Weather) (control : ControlDir)
    (options : WorktreeOptions) (paths : List ReceiptPath) (start : World) :
    Except WorktreeError Nat → World → Prop
  | .ok _, finish => ∀ slot, BackupSlots host control paths slot →
      start.look slot ≠ none ∧ finish.look slot = none
  | .error _, _ => Apart host control paths →
      (∀ path ∈ paths, BackupIntact crates host control options start path) → weather.fails

/-- What survives of a later world survives of an earlier one. -/
theorem survives_earlier {slots slots' : Slot → Prop} {start middle : World}
    (lost : World.Lost slots start middle) (more : ∀ slot, slots' slot → slots slot) {ρ : Type}
    (op : FsOp ρ) (here : World)
    (survives : (fsMachine host weather).Survives (World.Lost slots' middle) op here) :
    (fsMachine host weather).Survives (World.Lost slots start) op here :=
  ⟨lost.trans (survives.1.mono more), fun left torn =>
    lost.trans ((survives.2 left torn).mono more)⟩

theorem discardFrom_meets (items : List (ReceiptPath × Nat)) :
    (discardFrom crates control options items).run.Meets (fsMachine host weather)
      ((fsMachine host weather).Survives
        (World.Lost (BackupSlots host control (items.map Prod.fst)) world))
      (fun result finish => finish.locks = world.locks ∧
        World.Lost (BackupSlots host control (items.map Prod.fst)) world finish ∧
        AllDiscarded crates host weather control options (items.map Prod.fst) world result finish)
      world := by
  induction items generalizing world with
  | nil =>
      refine ⟨rfl, World.Lost.refl world, ?_⟩
      rintro slot ⟨path, impossible, _⟩
      cases impossible
  | cons item rest ih =>
      obtain ⟨path, position⟩ := item
      have more : ∀ slot, BackupSlots host control (rest.map Prod.fst) slot →
          BackupSlots host control (path :: rest.map Prod.fst) slot :=
        fun slot ⟨other, among, named⟩ => ⟨other, List.mem_cons_of_mem _ among, named⟩
      have first : ∀ name, path.backupName = some name →
          BackupSlots host control [path] (host.slot control.dir name) :=
        fun name named => ⟨path, List.mem_singleton_self path, name, named, rfl⟩
      have one : ∀ slot, BackupSlots host control [path] slot →
          BackupSlots host control (path :: rest.map Prod.fst) slot := by
        rintro slot ⟨other, among, named⟩
        cases List.mem_singleton.mp among
        exact ⟨path, List.mem_cons_self, named⟩
      unfold discardFrom
      rw [Task.meets_except_bind]
      refine ((discardPath_meets position first).guard_mono
        (survives_earlier (World.Lost.refl world) one)).mono ?_
      rintro result middle ⟨locks, lost, discarded⟩
      have grown := lost.mono one
      cases result with
      | error error =>
          exact ⟨locks, grown, fun _ intact => discarded (intact path List.mem_cons_self)⟩
      | ok removed =>
          dsimp only
          rw [Task.meets_except_bind]
          refine (ih.guard_mono (survives_earlier grown more)).mono ?_
          rintro result finish ⟨locks', lost', all⟩
          have whole := grown.trans (lost'.mono more)
          cases result with
          | error error =>
              refine ⟨locks'.trans locks, whole, fun apart intact => all ?_ ?_⟩
              · exact (List.pairwise_cons.mp apart).2
              · intro other among name named
                obtain ⟨valid, seen, shows, rest⟩ := intact other
                  (List.mem_cons_of_mem _ among) name named
                refine ⟨valid, seen, ?_, rest⟩
                rw [lost.kept, shows]
                rintro ⟨same, single, another, also, equal⟩
                cases List.mem_singleton.mp single
                exact (List.pairwise_cons.mp apart).1 other among another name also named equal
          | ok count =>
              refine ⟨locks'.trans locks, whole, ?_⟩
              rintro slot ⟨other, among, name, named, rfl⟩
              rcases List.mem_cons.mp among with rfl | later
              · obtain ⟨there, gone⟩ := discarded name named
                exact ⟨there, lost'.absent gone⟩
              · obtain ⟨there, gone⟩ := all _ ⟨other, later, name, named, rfl⟩
                refine ⟨fun absent => there ?_, gone⟩
                exact grown.absent absent

/-! ### The receipt -/

def receiptSlot (control : ControlDir) (id : UndoId) : Slot :=
  ⟨control.dir, undoPrefix ++ id.value ++ undoSuffix⟩

theorem slot_receipt (id : UndoId) :
    host.slot control.dir (undoPrefix ++ id.value ++ undoSuffix) = receiptSlot control id :=
  slot_of_own (ownName_of_receipt (undoName_id id)).1

/-- How the removal of a receipt ends. -/
def ReceiptRemoved (weather : Weather) (slot : Slot) : Except IoError Unit → World → Prop
  | .ok _, finish => ¬ weather.fails → finish.look slot = none
  | .error _, _ => weather.fails

theorem removeUndoReceipt_meets {id : UndoId} {seen : Seen}
    (shows : world.look (receiptSlot control id) = some seen) (file : seen.inode.kind = .file)
    (single : seen.links = 1) :
    (control.removeUndoReceipt id.value).run.Meets (fsMachine host weather)
      ((fsMachine host weather).Survives (World.Lost (· = receiptSlot control id) world))
      (fun result finish => finish.locks = world.locks ∧
        World.Lost (· = receiptSlot control id) world finish ∧
        ReceiptRemoved weather (receiptSlot control id) result finish) world := by
  have here : World.Lost (· = receiptSlot control id) world world := World.Lost.refl world
  have taken : World.Lost (· = receiptSlot control id) world
      (world.unlink (receiptSlot control id)) := World.lost_unlink shows single rfl
  have plain : ¬ seen.inode.kind = .directory := by
    rw [file]
    exact FileKind.noConfusion
  unfold ControlDir.removeUndoReceipt
  rw [undoName_id]
  change (control.removeNamedJournal _).run.Meets _ _ _ _
  unfold ControlDir.removeNamedJournal
  rw [Task.meets_except_bind, attempt, Task.meets_except_lift]
  refine ⟨⟨here, fun _ => False.elim⟩, fun answer finish stepped => ?_⟩
  have came := removeFile_step stepped
  rw [slot_receipt] at came
  have facts : finish.locks = world.locks ∧
      World.Lost (· = receiptSlot control id) world finish := by
    rcases came with rfl | rfl
    · exact ⟨rfl, here⟩
    · exact ⟨rfl, taken⟩
  have calm : ¬ weather.fails → answer = .ok () ∧
      finish.look (receiptSlot control id) = none := by
    intro quiet
    rcases stepped with executed | ⟨fails, _⟩
    · simp only [FsCall.exec, slot_receipt, shows, if_neg plain] at executed
      cases executed
      exact ⟨rfl, World.look_unlink_self⟩
    · exact absurd fails quiet
  cases answer with
  | ok done =>
      have failed : weather.fails → ∀ error, finish.locks = world.locks ∧
          World.Lost (· = receiptSlot control id) world finish ∧
          ReceiptRemoved weather (receiptSlot control id) (.error error) finish :=
        fun fails _ => ⟨facts.1, facts.2, fails⟩
      exact meets_call_last (fun _ impossible => impossible) ⟨facts.2, fun _ => False.elim⟩
        ⟨facts.1, facts.2, fun quiet => (calm quiet).2⟩ fun fails error =>
          ⟨failed fails error, failed fails error⟩
  | error error =>
      have fails : weather.fails := by
        by_contra quiet
        cases (calm quiet).1
      change Task.Meets _ _ (ExceptT.run
        (if error.kind = .notFound then pure () else throw error : Io Unit)) _ finish
      split
      · exact ⟨facts.1, facts.2, fun quiet => absurd fails quiet⟩
      · exact ⟨facts.1, facts.2, fails⟩

/-! ### The whole receipt -/

/-- What a discard of this receipt may take away. -/
def DiscardSlots (host : Host) (control : ControlDir) (id : UndoId) (paths : List ReceiptPath)
    (slot : Slot) : Prop :=
  BackupSlots host control paths slot ∨ slot = receiptSlot control id

/-- Everything was there and is gone; an error needs a fault or a missing backup. -/
def DiscardEnds (crates : Crates T) (host : Host) (weather : Weather) (control : ControlDir)
    (options : WorktreeOptions) (id : UndoId) (paths : List ReceiptPath) (start : World) :
    Except WorktreeError Nat → World → Prop
  | .ok _, finish =>
      (∀ slot, BackupSlots host control paths slot →
        start.look slot ≠ none ∧ finish.look slot = none) ∧
      (¬ weather.fails → finish.look (receiptSlot control id) = none)
  | .error _, _ => Apart host control paths →
      (∀ path ∈ paths, BackupIntact crates host control options start path) → weather.fails

theorem discard_meets {id : UndoId} {receipt : StoredReceipt} {seen : Seen}
    (named : receipt.id = id.value)
    (shows : world.look (receiptSlot control id) = some seen) (file : seen.inode.kind = .file)
    (single : seen.links = 1)
    (foreign : ¬ BackupSlots host control receipt.paths (receiptSlot control id)) :
    (discard crates control receipt options).run.Meets (fsMachine host weather)
      ((fsMachine host weather).Survives
        (World.Lost (DiscardSlots host control id receipt.paths) world))
      (fun result finish => finish.locks = world.locks ∧
        World.Lost (DiscardSlots host control id receipt.paths) world finish ∧
        DiscardEnds crates host weather control options id receipt.paths world result finish)
      world := by
  have backups : ∀ slot, BackupSlots host control receipt.paths slot →
      DiscardSlots host control id receipt.paths slot := fun _ => .inl
  have itself : ∀ slot, slot = receiptSlot control id →
      DiscardSlots host control id receipt.paths slot := fun _ => .inr
  have items : receipt.paths.zipIdx.map Prod.fst = receipt.paths := List.zipIdx_map_fst 0 _
  have loop : (discardFrom crates control options receipt.paths.zipIdx).run.Meets
      (fsMachine host weather) _ _ world := discardFrom_meets receipt.paths.zipIdx
  rw [items] at loop
  unfold discard
  rw [Task.meets_except_bind]
  refine (loop.guard_mono (survives_earlier (World.Lost.refl world) backups)).mono ?_
  rintro result middle ⟨locks, lost, all⟩
  have grown := lost.mono backups
  cases result with
  | error error => exact ⟨locks, grown, all⟩
  | ok removed =>
      dsimp only
      have still : middle.look (receiptSlot control id) = some seen := by
        rw [lost.kept foreign, shows]
      rw [named]
      unfold orElse
      rw [Task.meets_except_bind, Task.meets_except_adapt]
      refine ((removeUndoReceipt_meets still file single).guard_mono
        (survives_earlier grown itself)).mono ?_
      rintro result finish ⟨locks', lost', ended⟩
      have whole := grown.trans (lost'.mono itself)
      cases result with
      | error error => exact ⟨locks'.trans locks, whole, fun _ _ => ended⟩
      | ok done =>
          refine ⟨locks'.trans locks, whole, fun slot among => ?_, ended⟩
          obtain ⟨there, gone⟩ := all slot among
          exact ⟨there, lost'.absent gone⟩

/-! ### Receipts as they are stored -/

theorem check_ok {ε α : Type} {condition : Prop} [Decidable condition] {error : ε}
    {next : PUnit → Except ε α} {value : α} :
    (if condition then throw error >>= next else next ⟨⟩) = .ok value ↔
      ¬ condition ∧ next ⟨⟩ = .ok value := by
  by_cases holds : condition
  · rw [if_pos holds]
    constructor
    · intro impossible
      cases impossible
    · rintro ⟨fails, _⟩
      exact absurd holds fails
  · rw [if_neg holds]
    exact ⟨fun ended => ⟨holds, ended⟩, And.right⟩

theorem validateReceiptPath_name {id name : String} {position : Nat} {previous : Option String}
    (valid : validateReceiptPath crates id position previous path = .ok ())
    (named : path.backupName = some name) :
    name = artifactName id position "backup" ∧ path.backup.isSome = true := by
  unfold validateReceiptPath at valid
  obtain ⟨placed, valid⟩ := check_ok.mp valid
  obtain ⟨_, valid⟩ := check_ok.mp valid
  have indexed : path.index = position := by
    by_contra different
    exact placed (by simp [different])
  split at valid
  · next found _ there recorded =>
      rw [named] at there
      cases there
      split at valid
      · next agrees =>
          rw [recorded]
          exact ⟨by rw [agrees.1, indexed], rfl⟩
      · cases valid
  · next there _ =>
      rw [named] at there
      cases there
  · cases valid

theorem validateReceiptPaths_names {id : String} {position retained total : Nat}
    {previous : Option String} (paths : List ReceiptPath)
    (valid : validateReceiptPaths crates id position previous retained paths = .ok total) :
    ∀ index (path : ReceiptPath), paths[index]? = some path → ∀ name,
      path.backupName = some name →
        name = artifactName id (position + index) "backup" ∧ path.backup.isSome = true := by
  induction paths generalizing position previous retained with
  | nil =>
      intro index path impossible
      cases impossible
  | cons head rest ih =>
      unfold validateReceiptPaths at valid
      obtain ⟨_, checked, valid⟩ := bind_ok_iff.mp valid
      have tail : ∃ retained, validateReceiptPaths crates id (position + 1)
          (some (crates.portablePathKey head.path)) retained rest = .ok total := by
        dsimp only at valid
        split at valid
        · exact ⟨retained, valid⟩
        · obtain ⟨more, _, valid⟩ := bind_ok_iff.mp valid
          exact ⟨more, valid⟩
      obtain ⟨more, valid⟩ := tail
      intro index path found name named
      cases index with
      | zero =>
          rw [List.getElem?_cons_zero, Option.some.injEq] at found
          subst found
          exact validateReceiptPath_name checked named
      | succ index =>
          rw [List.getElem?_cons_succ] at found
          obtain ⟨same, recorded⟩ := ih valid index path found name named
          rw [same, Nat.add_assoc, Nat.add_comm 1 index]
          exact ⟨rfl, recorded⟩

section

variable {id : UndoId} {receipt : StoredReceipt} {seen : Seen}

theorem decodeReceipt_ok {bytes : Bytes}
    (decodes : decodeReceipt crates id.value options bytes = .ok receipt) :
    receipt.id = id.value ∧ ∃ total,
      validateReceiptPaths crates id.value 0 none 0 receipt.paths = .ok total := by
  unfold decodeReceipt at decodes
  obtain ⟨envelope, _, decodes⟩ := bind_ok_iff.mp decodes
  obtain ⟨agrees, decodes⟩ := check_ok.mp decodes
  obtain ⟨_, valid, decodes⟩ := bind_ok_iff.mp decodes
  cases decodes
  have same : envelope.body.transactionId = id.value := by
    by_contra different
    exact agrees (by simp [different])
  unfold validateBody at valid
  obtain ⟨_, valid⟩ := check_ok.mp valid
  obtain ⟨total, valid, _⟩ := bind_ok_iff.mp valid
  rw [same] at valid
  exact ⟨same, total, valid⟩

theorem StoredAs.backup_name (stored : StoredAs crates host control options world id receipt seen)
    {index : Nat} {name : String} (found : receipt.paths[index]? = some path)
    (named : path.backupName = some name) :
    name = artifactName id.value index "backup" ∧ path.backup.isSome = true := by
  obtain ⟨_, total, valid⟩ := decodeReceipt_ok stored.decodes
  have indexed := validateReceiptPaths_names receipt.paths valid index path found name named
  rw [Nat.zero_add] at indexed
  exact indexed

theorem StoredAs.backup_valid (stored : StoredAs crates host control options world id receipt seen)
    {name : String} (among : path ∈ receipt.paths) (named : path.backupName = some name) :
    validateArtifactName name = .ok () := by
  obtain ⟨index, found⟩ := List.mem_iff_getElem?.mp among
  rw [(stored.backup_name found named).1]
  exact validateArtifactName_of_id index id.valid (.inr rfl)

theorem StoredAs.slot_backup (stored : StoredAs crates host control options world id receipt seen)
    {name : String} (among : path ∈ receipt.paths) (named : path.backupName = some name) :
    host.slot control.dir name = ⟨control.dir, name⟩ := by
  obtain ⟨index, found⟩ := List.mem_iff_getElem?.mp among
  apply slot_of_own
  rw [(stored.backup_name found named).1]
  exact ownName_of_artifactName index id.valid (.inr rfl)

theorem StoredAs.apart (stored : StoredAs crates host control options world id receipt seen) :
    Apart host control receipt.paths := by
  unfold Apart
  rw [List.pairwise_iff_getElem]
  intro first second below before less name other named also same
  have one := (stored.backup_name (List.getElem?_eq_getElem below) named).1
  have two := (stored.backup_name (List.getElem?_eq_getElem before) also).1
  rw [stored.slot_backup (List.getElem_mem below) named,
    stored.slot_backup (List.getElem_mem before) also] at same
  have equal : name = other := congrArg Slot.name same
  rw [one, two] at equal
  have indices := artifactName_injective equal
  omega

/-- A discard of the receipt takes artifacts and the receipt, by name. -/
theorem StoredAs.discards (stored : StoredAs crates host control options world id receipt seen)
    {slot : Slot} (taken : DiscardSlots host control id receipt.paths slot) :
    hasPrefix slot.name artifactPrefix = true ∨ hasPrefix slot.name undoPrefix = true := by
  rcases taken with ⟨path, among, name, named, rfl⟩ | rfl
  · left
    rw [stored.slot_backup among named]
    exact hasPrefix_of_artifact (stored.backup_valid among named)
  · right
    exact (ownName_of_receipt (undoName_id id)).2.1

theorem StoredAs.foreign (stored : StoredAs crates host control options world id receipt seen) :
    ¬ BackupSlots host control receipt.paths (receiptSlot control id) := by
  rintro ⟨path, among, name, named, same⟩
  rw [stored.slot_backup among named] at same
  have equal : name = undoPrefix ++ id.value ++ undoSuffix := congrArg Slot.name same
  have starts := hasPrefix_of_artifact (stored.backup_valid among named)
  rw [equal] at starts
  unfold hasPrefix at starts
  simp only [String.toList_append, List.append_assoc] at starts
  cases starts


/-! ### Sessions in any weather -/

theorem ensureNoPending_reads :
    Reads host weather (ensureNoPending control) fun _ => True := by
  unfold ensureNoPending
  refine Task.Yields.bind (Task.yields_adapt (ControlDir.openNamedJournal_reads _)) fun _ _ => ?_
  refine yields_check fun _ => ?_
  refine Task.Yields.bind (Task.yields_adapt ControlDir.openOperationJournal_reads) fun _ _ => ?_
  refine yields_check fun _ => ?_
  refine Task.Yields.bind (Task.yields_adapt (ControlDir.openNamedJournal_reads _)) fun _ _ => ?_
  exact yields_ite (fun _ => Task.yields_throw _) fun _ => Task.yields_pure _ trivial

/-- The receipt that is stored is the one that is found, if any is. -/
theorem inspect_yields (stored : StoredAs crates host control options world id receipt seen) :
    Task.Yields (fsMachine host weather) (fun _ => False) (fun here => here = world)
      (inspect crates control id options) fun found => found = receipt := by
  have opened : Task.Yields (fsMachine host weather) (fun _ => False) (fun here => here = world)
      (control.openUndoReceipt id.value) fun found => found = some seen.ino := by
    unfold ControlDir.openUndoReceipt
    rw [undoName_id]
    refine ControlDir.openNamedJournal_finds fun here same => ?_
    subst same
    exact ⟨seen, stored.shows, rfl, stored.file⟩
  have read : Task.Yields (fsMachine host weather) (fun _ => False) (fun here => here = world)
      (readReceipt crates seen.ino id.value options) fun found => found = receipt := by
    unfold readReceipt
    refine Task.Yields.bind (Task.yields_adapt (yields_quiet (quiet_metadata _))) fun _ _ => ?_
    refine yields_check fun _ => ?_
    have whole : Task.Yields (fsMachine host weather) (fun _ => False) (fun here => here = world)
        (perform (.read seen.ino (options.limits.maxJournalBytes + 1)))
        fun bytes => bytes = seen.inode.bytes := by
      refine yields_answer (.inl (quiet_read _ _)) fun here bytes same executed => ?_
      subst same
      simp only [FsCall.exec, inode_of_look stored.shows, stored.file] at executed
      rw [if_neg FileKind.noConfusion, take_whole stored.short] at executed
      cases executed
      rfl
    refine Task.Yields.bind (Task.yields_adapt whole) fun bytes same => ?_
    subst same
    refine yields_check fun _ => ?_
    rw [stored.decodes]
    exact Task.yields_pure _ rfl
  have exactly : Task.Yields (fsMachine host weather) (fun _ => False) (fun here => here = world)
      (readExact crates control id.value options) fun found => found = some receipt := by
    unfold readExact
    refine Task.Yields.bind (Task.yields_adapt opened) fun found same => ?_
    subst same
    exact Task.Yields.bind read fun found same => Task.yields_pure _ (by rw [same])
  unfold inspect
  refine Task.Yields.bind exactly fun found same => ?_
  subst same
  exact Task.yields_pure _ rfl

/-- A lock file that is there is opened and nothing else. -/
theorem openLock_meets {guard : {ρ : Type} → FsOp ρ → World → Prop} {lock : Seen}
    (shows : world.look (host.slot control.dir "lock") = some lock)
    (file : lock.inode.kind = .file)
    (guarded : guard (.io (.openFile control.dir "lock" .create)) world) :
    control.openLock.run.Meets (fsMachine host weather) guard
      (fun result finish => finish = world ∧ ∀ found, result = .ok found → found = lock.ino)
      world := by
  have opens : (FsCall.openFile control.dir "lock" .create).exec host world =
      (.ok lock.ino, world) := by
    simp only [FsCall.exec, FsCall.execOpen, shows, file]
  refine ⟨guarded, fun answer finish stepped => ?_⟩
  rcases stepped with executed | ⟨_, error, rfl, rfl | ⟨rfl, _⟩ | torn, _⟩
  · rw [opens] at executed
    cases executed
    refine ⟨rfl, fun found same => ?_⟩
    cases same
    rfl
  · exact ⟨rfl, fun found impossible => by cases impossible⟩
  · rw [opens]
    exact ⟨rfl, fun found impossible => by cases impossible⟩
  · exact torn.elim

/-- A lock that nobody holds is taken, or a call fails. -/
theorem tryLock_meets {guard : {ρ : Type} → FsOp ρ → World → Prop} {lock : Ino}
    (free : lock ∉ world.locks) (guarded : guard (.io (.tryLock lock)) world) :
    (perform (.tryLock lock)).run.Meets (fsMachine host weather) guard
      (fun answer finish =>
        (answer = .ok true ∧ finish = world.locked (lock :: world.locks)) ∨
          (∃ error, answer = .error error) ∧ finish = world) world := by
  have locks : (FsCall.tryLock lock).exec host world =
      (.ok true, world.locked (lock :: world.locks)) := by
    simp only [FsCall.exec, if_neg free]
    rfl
  refine ⟨guarded, fun answer finish stepped => ?_⟩
  rcases stepped with executed | ⟨_, error, rfl, rfl | ⟨rfl, same⟩ | torn, _⟩
  · rw [locks] at executed
    cases executed
    exact .inl ⟨rfl, rfl⟩
  · exact .inr ⟨⟨error, rfl⟩, rfl⟩
  · rw [locks] at same
    exact absurd same (List.cons_ne_self _ _)
  · exact torn.elim

/-- What holds after an action under a lock holds of the world without it. -/
theorem holding_meets {α : Type} {guard : {ρ : Type} → FsOp ρ → World → Prop} {lock : Ino}
    {action : Action α} {post : Except WorktreeError α → World → Prop}
    (meets : action.run.Meets (fsMachine host weather) guard (fun result middle =>
      guard (.unlock lock) middle ∧
        post result (middle.locked (middle.locks.filter (· ≠ lock)))) world) :
    (holding lock action).run.Meets (fsMachine host weather) guard post world := by
  unfold holding
  rw [ExceptT.run_mk, CrashLogic.Task.meets_bind]
  refine meets.mono ?_
  rintro result middle ⟨guarded, holds⟩
  refine ⟨guarded, ?_⟩
  rintro _ _ rfl
  exact holds

/-- A discard loses nothing but what it is to take, whatever fails. -/
theorem undoDiscard_meets (root : FsRoot) (ready : Ready host root world control)
    (stored : StoredAs crates host control options world id receipt seen)
    (single : seen.links = 1) :
    (undoDiscard crates root options id).run.Meets (fsMachine host weather)
      ((fsMachine host weather).Survives
        (World.Lost (DiscardSlots host control id receipt.paths) world))
      (fun _ finish => finish.locks = world.locks ∧
        World.Lost (DiscardSlots host control id receipt.paths) world finish) world := by
  have here : World.Lost (DiscardSlots host control id receipt.paths) world world :=
    World.Lost.refl world
  have admits : (fsMachine host weather).Admits ((fsMachine host weather).Survives
      (World.Lost (DiscardSlots host control id receipt.paths) world)) world :=
    Machine.admits_survives here
  obtain ⟨device, outer, first, second⟩ := ready.houses
  have found : Task.Yields (fsMachine host weather) (fun _ => False) (fun there => there = world)
      (root.openControl false) fun opened => opened = some control := by
    have yields : Task.Yields (fsMachine host weather) (fun _ => False)
        (fun there => there = world) (root.openControl false)
        fun opened => opened = some ⟨control.dir, root.device⟩ := by
      have outside : ∀ there, there = world →
          there.Leads (host.slot root.dir ".weavatrix") outer := by
        rintro there rfl
        exact first
      have inside : ∀ there, there = world →
          there.Leads (host.slot outer "worktree") control.dir := by
        rintro there rfl
        exact second
      exact FsRoot.openControl_finds outside inside
    rw [← device] at yields
    exact yields
  unfold undoDiscard openSession orElse
  rw [Task.meets_except_bind, Task.meets_except_adapt]
  refine (meets_of_yields found admits).mono ?_
  rintro result middle ⟨rfl, opened⟩
  cases result with
  | error error => exact ⟨rfl, here⟩
  | ok value =>
      obtain rfl := opened value rfl
      dsimp only [Except.mapError]
      obtain ⟨lock, shows, file, free⟩ := ready.unlocked
      rw [Task.meets_except_bind, Task.meets_except_adapt]
      refine (openLock_meets shows file ⟨here, fun _ => False.elim⟩).mono ?_
      rintro result last ⟨rfl, found⟩
      cases result with
      | error error => exact ⟨rfl, here⟩
      | ok number =>
          obtain rfl := found number rfl
          dsimp only [Except.mapError]
          rw [Task.meets_except_bind, Task.meets_except_lift]
          refine (tryLock_meets free ⟨here, fun _ => False.elim⟩).mono ?_
          rintro answer locked (⟨rfl, rfl⟩ | ⟨⟨error, rfl⟩, rfl⟩)
          · have held : StoredAs crates host control options
                (last.locked (lock.ino :: last.locks)) id receipt seen :=
              ⟨stored.shows, stored.file, stored.short, stored.decodes⟩
            have released : (lock.ino :: last.locks).filter (· ≠ lock.ino) = last.locks :=
              filter_taken free
            have ends : ∀ middle : World, middle.locks = lock.ino :: last.locks →
                World.Lost (DiscardSlots host control id receipt.paths) last middle →
                (fsMachine host weather).Survives
                    (World.Lost (DiscardSlots host control id receipt.paths) last)
                    (.unlock lock.ino) middle ∧
                  middle.locks.filter (· ≠ lock.ino) = last.locks ∧
                  World.Lost (DiscardSlots host control id receipt.paths) last
                    (middle.locked (middle.locks.filter (· ≠ lock.ino))) := by
              intro middle locks lost
              exact ⟨⟨lost, fun _ => False.elim⟩, by rw [locks, released], lost⟩
            have under : World.Lost (DiscardSlots host control id receipt.paths) last
                (last.locked (lock.ino :: last.locks)) := here
            dsimp only
            refine holding_meets ?_
            rw [Task.meets_except_bind]
            refine (ensureNoPending_reads.meets (Machine.admits_survives under)).mono ?_
            rintro result middle ⟨rfl, _⟩
            cases result with
            | error error => exact ends _ rfl here
            | ok done =>
                dsimp only
                rw [Task.meets_except_bind]
                refine (meets_of_yields (inspect_yields held)
                  (Machine.admits_survives under)).mono ?_
                rintro result middle ⟨rfl, same⟩
                cases result with
                | error error => exact ends _ rfl here
                | ok value =>
                    obtain rfl := same value rfl
                    have shown := held.shows
                    rw [slot_receipt] at shown
                    refine (discard_meets (decodeReceipt_ok stored.decodes).1 shown stored.file
                      single stored.foreign).mono ?_
                    rintro result finish ⟨locks, lost, _⟩
                    exact ends finish locks lost
          · exact ⟨rfl, here⟩

end

end Undo

end Worktree
