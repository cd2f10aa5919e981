import Worktree.CrashLogic.Run
import Worktree.Filesystem.StateFiles
/-
Runs in which no call fails: what the readers of slots, backups and state files
answer then, and that nothing they answer depends on the locks.
-/

namespace Worktree

open CrashLogic

variable {host : Host} {world : World} {α β ε : Type}

/-! ### Readers -/

/-- A program that only reads, in a world that is known. -/
theorem meets_of_yields {weather : Weather} {guard : {ρ : Type} → FsOp ρ → World → Prop}
    {program : ExceptT ε (Task FsOp) α} {good : α → Prop}
    (yields : Task.Yields (fsMachine host weather) (fun _ => False) (fun here => here = world)
      program good)
    (admits : (fsMachine host weather).Admits guard world) :
    program.run.Meets (fsMachine host weather) guard
      (fun result finish => finish = world ∧ ∀ value, result = .ok value → good value) world := by
  have still : (fsMachine host weather).Maintains (fun _ => False) (fun here => here = world) :=
    ⟨fun _ _ _ _ => False.elim, fun _ _ _ => False.elim⟩
  refine Task.Upholds.meets yields still rfl ?_ fun _ _ => False.elim
  rintro here rfl
  exact admits

theorem run_of_learns {program : Task FsOp α} {post : α → Prop}
    (learns : program.Learns (fsMachine host .calm) (fun here => here = world) post) :
    ∃ value, program.run (fsKernel host) world = (value, world) ∧ post value := by
  have meets : program.Meets (fsMachine host .calm) (fun _ _ => True) _ world :=
    learns.meets fun _ _ => trivial
  have ended := meets.returns (returns_run trivial program world)
  exact ⟨_, Prod.ext_iff.mpr ⟨rfl, ended.1⟩, ended.2⟩

theorem run_of_reads {program : ExceptT ε (Task FsOp) α} {good : α → Prop}
    (reads : Reads host .calm program good) (world : World) :
    ∃ result, program.run.run (fsKernel host) world = (result, world) ∧
      ∀ value, result = .ok value → good value := by
  have meets : program.run.Meets (fsMachine host .calm) (fun _ _ => True) _ world :=
    reads.meets fun _ _ => trivial
  have ended := meets.returns (returns_run trivial program.run world)
  exact ⟨_, Prod.ext_iff.mpr ⟨rfl, ended.1⟩, ended.2⟩

/-- A reader finds something good, or what it needs is not there. -/
theorem run_of_answers {program : Io α} {good : α → Prop} {clear missing : Prop}
    (learns : program.run.Learns (fsMachine host .calm) (fun here => here = world)
      (Answers .calm good clear missing)) :
    ∃ result, program.run.run (fsKernel host) world = (result, world) ∧
      (∀ value, result = .ok value → good value) ∧ ∀ error, result = .error error → ¬ clear := by
  obtain ⟨result, ran, answers⟩ := run_of_learns learns
  refine ⟨result, ran, ?_, ?_⟩
  · rintro value rfl
    exact answers
  · rintro error rfl holds
    exact answers.1 holds

/-- The run in which the call after this many others fails without effect, and no
other call. -/
def runFailing (host : Host) (error : IoError) : Nat → Task FsOp α → World → α × World
  | _, .done value, start => (value, start)
  | 0, .call (.io _) next, start => (next (.error error)).run (fsKernel host) start
  | 0, .call op next, start =>
      runFailing host error 0 (next ((fsKernel host).exec op start).1)
        ((fsKernel host).exec op start).2
  | count + 1, .call op next, start =>
      runFailing host error count (next ((fsKernel host).exec op start).1)
        ((fsKernel host).exec op start).2

/-- A machine that may answer as the kernel does, and may fail any call, may run so. -/
theorem returns_runFailing_of {machine : Machine FsOp World} {error : IoError}
    (steps : ∀ {ρ : Type} (op : FsOp ρ) (start : World),
      machine.step op start ((fsKernel host).exec op start).1 ((fsKernel host).exec op start).2)
    (fault : ∀ {ρ : Type} (call : FsCall ρ) (start : World),
      machine.step (.io call) start (.error error) start) (count : Nat)
    (program : Task FsOp α) (start : World) :
    program.Returns machine start (runFailing host error count program start).1
      (runFailing host error count program start).2 := by
  induction program generalizing count start with
  | done value =>
      cases count <;> exact ⟨rfl, rfl⟩
  | call op next ih =>
      cases op with
      | io call =>
          cases count with
          | zero => exact ⟨_, start, fault call start, Task.returns_run_of steps _ start⟩
          | succ count => exact ⟨_, _, steps (.io call) start, ih _ count _⟩
      | unlock file => cases count <;> exact ⟨_, _, steps (.unlock file) start, ih _ _ _⟩
      | refuseAppend => cases count <;> exact ⟨_, _, steps .refuseAppend start, ih _ _ _⟩

theorem step_fault {weather : Weather} {error : IoError} (fails : weather.fails)
    (found : error.kind ≠ .notFound) {ρ : Type} (call : FsCall ρ) (start : World) :
    (fsMachine host weather).step (.io call) start (.error error) start :=
  .inr ⟨fails, error, rfl, .inl rfl, fun missing => absurd missing found⟩

theorem returns_runFailing {weather : Weather} {error : IoError} (fails : weather.fails)
    (refuses : weather.refuses) (found : error.kind ≠ .notFound) (count : Nat)
    (program : Task FsOp α) (start : World) :
    program.Returns (fsMachine host weather) start (runFailing host error count program start).1
      (runFailing host error count program start).2 :=
  returns_runFailing_of (step_exec refuses) (step_fault fails found) count program start

/-! ### Calls -/

theorem run_perform {call : FsCall α} {answer : Except IoError α} {after : World}
    (executes : call.exec host world = (answer, after)) :
    (perform call).run.run (fsKernel host) world = (answer, after) := executes

theorem run_attempt {program : Io α} {answer : Except IoError α} {after : World}
    (ran : program.run.run (fsKernel host) world = (answer, after)) :
    (attempt program).run.run (fsKernel host) world = (.ok answer, after) := by
  unfold attempt
  rw [Task.run_except_lift, ran]

/-! ### Locks -/

/-- The world with other locks. -/
def World.locked (world : World) (locks : List Ino) : World :=
  { world with locks }

@[simp] theorem World.locked_look (locks : List Ino) (slot : Slot) :
    (world.locked locks).look slot = world.look slot := rfl

theorem nextFree_locked (locks spare : List Ino) :
    (world.locked locks).nextFree spare = world.nextFree spare := by
  induction spare with
  | nil => rfl
  | cons ino rest ih =>
      unfold World.nextFree
      rw [ih]
      rfl

/-- Only an attempt to lock finds out about locks. -/
theorem exec_locked {call : FsCall α}
    (quiet : (fsMachine host .calm).Quiet (.io call)) (locks : List Ino) :
    (call.exec host (world.locked locks)).1 = (call.exec host world).1 := by
  cases call with
  | tryLock file =>
      have open_ : (FsCall.tryLock file).exec host (world.locked []) =
          (.ok true, world.locked [file]) := rfl
      have same := (quiet (world.locked [])).2 _ _ (.inl open_)
      cases congrArg World.locks same
  | openFile dir name mode =>
      have fresh : ((world.locked locks).nextFree (world.locked locks).spare).1 =
          (world.nextFree world.spare).1 := by
        rw [nextFree_locked]
        rfl
      cases mode with
      | createNew =>
          simp only [FsCall.exec, FsCall.execOpen, World.locked_look]
          split
          · rfl
          · rw [fresh]
      | create =>
          simp only [FsCall.exec, FsCall.execOpen, World.locked_look]
          split
          · split <;> rfl
          · rw [fresh]
      | readWrite =>
          simp only [FsCall.exec, FsCall.execOpen, World.locked_look]
          split
          · rfl
          · split <;> rfl
      | read =>
          simp only [FsCall.exec, FsCall.execOpen, World.locked_look]
          split
          · rfl
          · split <;> rfl
  | rename dir name toDir toName =>
      simp only [FsCall.exec, FsCall.execRename, World.locked_look]
      repeat' split
      all_goals first | rfl | contradiction
  | hardLink dir name toDir toName =>
      simp only [FsCall.exec, FsCall.execHardLink, World.locked_look]
      repeat' split
      all_goals first | rfl | contradiction
  | symlinkMetadata dir name =>
      simp only [FsCall.exec, World.locked_look]
      split <;> rfl
  | openDir dir name =>
      simp only [FsCall.exec, World.locked_look]
      split
      · rfl
      · split <;> rfl
  | createDir dir name =>
      simp only [FsCall.exec, World.locked_look]
      split <;> rfl
  | removeFile dir name =>
      simp only [FsCall.exec, World.locked_look]
      repeat' split
      all_goals rfl
  | read file limit =>
      change (if (world.inodes file).kind = .directory then _ else _ : _ × _).1 =
        (if (world.inodes file).kind = .directory then _ else _ : _ × _).1
      split <;> rfl
  | _ => rfl

/-- A reader finds the same whoever holds the locks. -/
theorem run_locked {program : ExceptT ε (Task FsOp) α} {good : α → Prop}
    (reads : Reads host .calm program good) (world : World) (locks : List Ino) :
    program.run.run (fsKernel host) (world.locked locks) =
      ((program.run.run (fsKernel host) world).1, world.locked locks) := by
  unfold Reads Task.Yields at reads
  generalize program.run = task at reads
  induction task with
  | done value => rfl
  | call op next ih =>
      obtain ⟨kind, rest⟩ := reads
      have quiet : (fsMachine host .calm).Quiet op := by
        rcases kind with quiet | impossible
        · exact quiet
        · exact impossible.elim
      cases op with
      | io call =>
          have here : (call.exec host world).2 = world := (quiet world).2 _ _ (.inl rfl)
          have there : (call.exec host (world.locked locks)).2 = world.locked locks :=
            (quiet (world.locked locks)).2 _ _ (.inl rfl)
          have answer : (call.exec host (world.locked locks)).1 = (call.exec host world).1 :=
            exec_locked quiet locks
          have stepped : (fsMachine host .calm).step (.io call) world (call.exec host world).1
              (call.exec host world).2 := .inl rfl
          have tail := ih (call.exec host world).1 (rest world _ _ trivial stepped)
          change (next (call.exec host (world.locked locks)).1).run (fsKernel host)
            (call.exec host (world.locked locks)).2 = (((next (call.exec host world).1).run
              (fsKernel host) (call.exec host world).2).1, world.locked locks)
          rw [there, answer, tail, here]
      | unlock file =>
          have same := (quiet (world.locked [file])).2 () _ rfl
          have gone := congrArg World.locks same
          simp [World.locked] at gone
      | refuseAppend =>
          have stepped : (fsMachine host .calm).step .refuseAppend world () world := ⟨trivial, rfl⟩
          exact ih () (rest world () world trivial stepped)

/-! ### Backups and state files -/

namespace ControlDir

section

variable {weather : Weather} {known : World → Prop} {control : ControlDir} {name : String}
  {view : Option Seen}

theorem safeBackupMetadata_iff (seen : Seen) (links : Nat) :
    (∃ identity, control.safeBackupMetadata seen.metadata links = .ok identity) ↔
      seen.File control.device ∧ seen.links = links := by
  rw [← TargetAccess.unsafe_iff]
  unfold safeBackupMetadata
  split
  · next bad =>
      rw [bad]
      simp
  · next safe =>
      rw [(Bool.not_eq_true _).mp safe]
      simp

theorem safeBackupMetadata_ok {seen : Seen} {links : Nat} (file : seen.File control.device)
    (count : seen.links = links) :
    control.safeBackupMetadata seen.metadata links = .ok seen.identity := by
  unfold safeBackupMetadata
  rw [if_neg]
  · rfl
  · rw [(TargetAccess.unsafe_iff seen control.device links).mpr ⟨file, count⟩]
    exact Bool.false_ne_true

theorem safeBackupMetadata_error {seen : Seen} {links : Nat} {error : IoError}
    (failed : control.safeBackupMetadata seen.metadata links = .error error) :
    ¬ (seen.File control.device ∧ seen.links = links) ∧ error.kind ≠ .notFound := by
  constructor
  · rintro ⟨file, count⟩
    rw [safeBackupMetadata_ok file count] at failed
    cases failed
  · unfold safeBackupMetadata at failed
    split at failed
    · cases failed
      simp [invalid]
    · cases failed

theorem backupEvidenceWithLinks_learns (sha256 : Bytes → Sha256Hash) (maxBytes links : Nat)
    (sees : ∀ world, known world → world.look (host.slot control.dir name) = view) :
    (control.backupEvidenceWithLinks sha256 name maxBytes links).run.Learns
      (fsMachine host weather) known
      (Answers weather (fun evidence => ∃ seen, view = some seen ∧ seen.File control.device ∧
          seen.links = links ∧ Fits maxBytes seen ∧ evidence = seen.evidence sha256)
        (validateArtifactName name = .ok () ∧ ∃ seen, view = some seen ∧
          seen.File control.device ∧ seen.links = links ∧ Fits maxBytes seen)
        (view = none)) := by
  unfold backupEvidenceWithLinks
  refine TargetAccess.learns_artifactName And.left ?_
  refine learns_openRead sees (fun seen shows _ => ?_) (fun gone => ?_)
    (fun seen shows symlink => ?_) fun fails error absent => answers_fault fails absent
  · subst shows
    refine learns_metadata sees ?_ fun fails error kind => answers_failed fails kind
    refine learns_liftExcept _ (fun identity safe => ?_) fun error failed => ?_
    · have proper := (safeBackupMetadata_iff seen links).mp ⟨identity, safe⟩
      rw [safeBackupMetadata_ok proper.1 proper.2] at safe
      cases safe
      refine learns_limit maxBytes _ (fun room => ?_) fun overflow => ?_
      · refine learns_read sees (by rw [proper.1.1]; simp) ?_
          fun fails error kind => answers_failed fails kind
        by_cases long : (seen.inode.bytes.take (maxBytes + 1)).length > maxBytes
        · rw [if_pos long]
          refine learns_throw_bind _ (answers_refused ?_ (by simp [invalid]))
          rintro ⟨_, found, shown, _, _, fits⟩
          cases shown
          exact take_too_long.mp long fits.length
        · rw [if_neg long]
          have short : seen.inode.bytes.length ≤ maxBytes := by
            by_contra exceeds
            exact long (take_too_long.mpr exceeds)
          rw [take_whole short]
          refine learns_metadata sees ?_ fun fails error kind => answers_failed fails kind
          rw [safeBackupMetadata_ok proper.1 proper.2]
          refine learns_liftExcept _ (fun again same => ?_) fun error impossible => by
            cases impossible
          cases same
          rw [if_neg (not_not_intro rfl)]
          exact learns_pure _ ⟨seen, rfl, proper.1, proper.2, ⟨short, room⟩, rfl⟩
      · refine answers_refused ?_ (by simp [invalid])
        rintro ⟨_, _, _, _, _, fits⟩
        exact overflow fits.limit
    · obtain ⟨improper, kind⟩ := safeBackupMetadata_error failed
      refine answers_refused ?_ kind
      rintro ⟨_, found, shown, file, count, _⟩
      cases shown
      exact improper ⟨file, count⟩
  · refine ⟨fun clear => ?_, fun _ => gone⟩
    obtain ⟨_, seen, shown, _⟩ := clear
    rw [gone] at shown
    cases shown
  · refine answers_refused ?_ (by simp [IoError.looped])
    rintro ⟨_, found, shown, file, _⟩
    cases shows.symm.trans shown
    rw [file.1] at symlink
    cases symlink

end

variable {control : ControlDir} {name : String} {seen : Seen}

theorem openNamedJournal_absent (absent : world.look (host.slot control.dir name) = none) :
    (control.openNamedJournal name).run.run (fsKernel host) world = (.ok none, world) := by
  have executes : (FsCall.openFile control.dir name .readWrite).exec host world =
      (.error .missing, world) := by
    simp only [FsCall.exec, FsCall.execOpen, absent]
  unfold openNamedJournal
  rw [Task.run_except_ok _ (run_attempt (run_perform executes))]
  rfl

theorem openNamedJournal_present (shows : world.look (host.slot control.dir name) = some seen)
    (file : seen.inode.kind = .file) :
    (control.openNamedJournal name).run.run (fsKernel host) world =
      (.ok (some seen.ino), world) := by
  have executes : (FsCall.openFile control.dir name .readWrite).exec host world =
      (.ok seen.ino, world) := by
    simp only [FsCall.exec, FsCall.execOpen, shows, file]
  unfold openNamedJournal
  rw [Task.run_except_ok _ (run_attempt (run_perform executes))]
  rfl

theorem openOperationJournal_absent
    (current : world.look (host.slot control.dir operationJournal) = none)
    (legacy : world.look (host.slot control.dir legacyOperationJournal) = none) :
    control.openOperationJournal.run.run (fsKernel host) world = (.ok none, world) := by
  unfold openOperationJournal
  rw [Task.run_except_ok _ (openNamedJournal_absent current),
    Task.run_except_ok _ (openNamedJournal_absent legacy)]
  rfl

end ControlDir

namespace FsRoot

/-- The state directory of the root. -/
structure Houses (host : Host) (root : FsRoot) (world : World) (control : ControlDir) : Prop where
  device : control.device = root.device
  leads : ∃ outer, world.Leads (host.slot root.dir ".weavatrix") outer ∧
    world.Leads (host.slot outer "worktree") control.dir

variable {root : FsRoot} {control : ControlDir}

theorem openOrCreateChild_run {parent dir : Ino} {name : String}
    (leads : world.Leads (host.slot parent name) dir) :
    (openOrCreateChild parent name false).run.run (fsKernel host) world =
      (.ok (some dir), world) := by
  obtain ⟨seen, shows, ino, kind⟩ := leads.look
  have executes : (FsCall.openDir parent name).exec host world = (.ok dir, world) := by
    simp only [FsCall.exec, shows, kind, ino]
  unfold openOrCreateChild
  refine (Task.run_except_ok _ (show _ = (Except.ok (some dir), world) from ?_)).trans rfl
  rw [Task.run_except_ok _ (run_attempt (run_perform executes))]
  rfl

theorem openControl_run (houses : root.Houses host world control) :
    (root.openControl false).run.run (fsKernel host) world = (.ok (some control), world) := by
  obtain ⟨device, outer, first, second⟩ := houses
  unfold openControl
  rw [Task.run_except_ok _ (openOrCreateChild_run first)]
  dsimp only
  rw [Task.run_except_ok _ (openOrCreateChild_run second), ← device]
  rfl

end FsRoot

end Worktree
