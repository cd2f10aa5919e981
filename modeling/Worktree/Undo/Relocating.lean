import Worktree.CrashLogic.Outcome
import Worktree.Crates.Plain
import Worktree.Filesystem.Relocating
import Worktree.Undo.Discarding
import Worktree.Undo.Retained
/-
Backups that move into the state directory, in runs that may stop anywhere.

A backup lies beside its target or in the state directory. Every run moves the
backups one after the other and only from the first place to the second, so that
whatever runs came before, the next one has the rest to do.
-/

namespace Worktree

open CrashLogic

namespace Undo

variable {T : Type} {crates : Crates T} {host : Host} {weather : Weather} {root : FsRoot}
  {control : ControlDir} {options : WorktreeOptions} {receipt : StoredReceipt}
  {start middle finish world : World} {path : ReceiptPath} {name : String}
  {expected : PresentEvidence} {parent : Ino} {seen : Seen}

/-! ### Backups -/

/-- The names of the backups are bound to the receipt and the place of the path. -/
structure Bound (receipt : StoredReceipt) : Prop where
  id : isValidId receipt.id = true
  names : ∀ (position : Nat) (path : ReceiptPath), receipt.paths[position]? = some path →
    ∀ name, path.backupName = some name → name = artifactName receipt.id position "backup"

/-- A backup of the path: its name and what is recorded of it. -/
structure Names (path : ReceiptPath) (name : String) (expected : PresentEvidence) : Prop where
  name : path.backupName = some name
  recorded : path.backup = some expected

/-- The file is the backup of the path, beside its target in this directory or in
the state directory. -/
structure Backup (crates : Crates T) (host : Host) (control : ControlDir) (root : FsRoot)
    (options : WorktreeOptions) (world : World) (path : ReceiptPath) (name : String)
    (parent : Ino) (seen : Seen) : Prop where
  walks : Walks host world root path.path parent
  exact : ∀ expected, Names path name expected → Exact crates.sha256 control.device
    options.limits.maxSourceBytesPerFile expected seen
  lies : Lies world (host.slot parent name) (host.slot control.dir name) seen

/-- If the path has a backup, it is exact and in exactly one place. -/
def Proper (crates : Crates T) (host : Host) (control : ControlDir) (root : FsRoot)
    (options : WorktreeOptions) (world : World) (path : ReceiptPath) : Prop :=
  ∀ name expected, Names path name expected →
    ∃ parent seen, Backup crates host control root options world path name parent seen

/-- If the path has a backup, it is in the state directory and no longer beside
its target. -/
def Settled (crates : Crates T) (host : Host) (control : ControlDir) (root : FsRoot)
    (options : WorktreeOptions) (world : World) (path : ReceiptPath) : Prop :=
  ∀ name expected, Names path name expected → ∃ parent seen,
    Backup crates host control root options world path name parent seen ∧
      world.look (host.slot parent name) = none

/-- If the path has a backup, its target opens, on the device of the state directory. -/
structure Reachable (crates : Crates T) (host : Host) (control : ControlDir) (root : FsRoot)
    (world : World) (path : ReceiptPath) : Prop where
  near : root.device = control.device
  housed : (world.inodes control.dir).device = control.device
  opens : ∀ name expected, Names path name expected →
    ∃ parent, Openable crates host world root path.path parent

theorem Names.unique {other : String} {evidence : PresentEvidence}
    (one : Names path name expected) (two : Names path other evidence) :
    other = name ∧ evidence = expected :=
  ⟨Option.some.inj (two.name.symm.trans one.name),
    Option.some.inj (two.recorded.symm.trans one.recorded)⟩

theorem Backup.outside
    (backup : Backup crates host control root options world path name parent seen) :
    parent ≠ control.dir := by
  rintro rfl
  exact backup.lies.apart rfl

/-! ### One step -/

/-- What the relocation of one path does: nothing, or one move. -/
structure Stepped (crates : Crates T) (host : Host) (control : ControlDir) (root : FsRoot)
    (options : WorktreeOptions) (path : ReceiptPath) (start finish : World) : Prop where
  relocated : Relocated control start finish
  others : ∀ slot : Slot, path.backupName ≠ some slot.name → finish.look slot = start.look slot
  still : ¬ Proper crates host control root options start path → finish = start
  kept : ∀ name expected parent seen, Names path name expected →
    Backup crates host control root options start path name parent seen →
      Lies finish (host.slot parent name) (host.slot control.dir name) seen

theorem Stepped.refl (path : ReceiptPath) (world : World) :
    Stepped crates host control root options path world world :=
  ⟨.refl control world, fun _ _ => rfl, fun _ => rfl, fun _ _ _ _ _ backup => backup.lies⟩

/-- The move of the backup into the state directory. -/
theorem stepped_move (own : ownName name = true) (names : Names path name expected)
    (backup : Backup crates host control root options world path name parent seen)
    (beside : world.look (host.slot parent name) = some seen)
    (inside : world.look (host.slot control.dir name) = none) :
    Stepped crates host control root options path world
        (world.move (host.slot parent name) (host.slot control.dir name) seen.ino) ∧
      Settled crates host control root options
        (world.move (host.slot parent name) (host.slot control.dir name) seen.ino) path := by
  have exact_ := backup.exact expected names
  obtain ⟨relocated, gone, arrived, others⟩ :=
    relocated_move own exact_.file.1 exact_.links beside inside
  refine ⟨⟨relocated, ?_, ?_, ?_⟩, ?_⟩
  · intro slot apart
    refine others slot fun same => apart ?_
    rw [names.name, same]
  · intro improper
    refine absurd (fun other evidence also => ?_) improper
    obtain ⟨rfl, rfl⟩ := names.unique also
    exact ⟨parent, seen, backup⟩
  · intro other evidence elsewhere there also found
    obtain ⟨rfl, rfl⟩ := names.unique also
    cases backup.walks.unique found.walks
    rcases found.lies with ⟨shows, _⟩ | ⟨absent, _⟩
    · cases beside.symm.trans shows
      exact .inr ⟨gone, arrived⟩
    · cases beside.symm.trans absent
  · intro other evidence also
    obtain ⟨rfl, rfl⟩ := names.unique also
    refine ⟨parent, seen, ⟨relocated.walks_iff.mpr backup.walks, backup.exact, ?_⟩, gone⟩
    exact .inr ⟨gone, arrived⟩

theorem backup_iff (own : ownName name = true) (relocated : Relocated control start world)
    (same : ∀ slot : Slot, slot.name = name → world.look slot = start.look slot) :
    Backup crates host control root options world path name parent seen ↔
      Backup crates host control root options start path name parent seen := by
  have looks : ∀ dir, world.look (host.slot dir name) = start.look (host.slot dir name) := by
    intro dir
    apply same
    rw [slot_of_own own]
  have lies : Lies world (host.slot parent name) (host.slot control.dir name) seen ↔
      Lies start (host.slot parent name) (host.slot control.dir name) seen := by
    unfold Lies
    rw [looks, looks]
  constructor
  · intro backup
    exact ⟨relocated.walks_iff.mp backup.walks, backup.exact, lies.mp backup.lies⟩
  · intro backup
    exact ⟨relocated.walks_iff.mpr backup.walks, backup.exact, lies.mpr backup.lies⟩

/-- A step of another path changes nothing for this one. -/
theorem proper_iff (own : ∀ name, path.backupName = some name → ownName name = true)
    (relocated : Relocated control start world)
    (same : ∀ slot : Slot, path.backupName = some slot.name → world.look slot = start.look slot) :
    Proper crates host control root options world path ↔
      Proper crates host control root options start path := by
  have each : ∀ name expected, Names path name expected →
      ((∃ parent seen, Backup crates host control root options world path name parent seen) ↔
        ∃ parent seen, Backup crates host control root options start path name parent seen) := by
    intro name expected names
    have unmoved : ∀ slot : Slot, slot.name = name → world.look slot = start.look slot :=
      fun slot named => same slot (by rw [named, names.name])
    refine exists_congr fun parent => exists_congr fun seen => ?_
    exact backup_iff (own name names.name) relocated unmoved
  exact ⟨fun proper name expected names =>
      (each name expected names).mp (proper name expected names),
    fun proper name expected names => (each name expected names).mpr (proper name expected names)⟩

/-- What is settled stays so. -/
theorem Settled.stays
    (settled : Settled crates host control root options middle path)
    (relocated : Relocated control middle world) :
    Settled crates host control root options world path := by
  intro name expected names
  obtain ⟨parent, seen, backup, absent⟩ := settled name expected names
  have outside := backup.outside
  have inside : middle.look (host.slot control.dir name) = some seen := by
    rcases backup.lies with ⟨shows, _⟩ | ⟨_, shows⟩
    · cases absent.symm.trans shows
    · exact shows
  have gone : world.look (host.slot parent name) = none := by
    rcases relocated.elsewhere (host.slot parent name) with same | gone | arrived
    · exact same.trans absent
    · exact gone
    · exact absurd arrived.1 outside
  refine ⟨parent, seen, ⟨relocated.walks_iff.mpr backup.walks, backup.exact, ?_⟩, gone⟩
  exact .inr ⟨gone, relocated.inside _ seen rfl inside⟩

theorem Reachable.stays
    (reachable : Reachable crates host control root start path)
    (proper : Proper crates host control root options start path)
    (relocated : Relocated control start world) :
    Reachable crates host control root world path where
  near := reachable.near
  housed := by
    rw [relocated.inodes]
    exact reachable.housed
  opens := by
    intro name expected names
    obtain ⟨parent, openable⟩ := reachable.opens name expected names
    obtain ⟨other, seen, backup⟩ := proper name expected names
    have outside := backup.outside
    rw [backup.walks.unique openable.walks] at outside
    exact ⟨parent, relocated.openable openable outside⟩

/-- What a step ends with. -/
def StepEnds (crates : Crates T) (host : Host) (weather : Weather) (control : ControlDir)
    (root : FsRoot) (options : WorktreeOptions) (path : ReceiptPath) (start : World)
    (result : Except WorktreeError Unit) (finish : World) : Prop :=
  Stepped crates host control root options path start finish ∧
    (result = .ok () → Proper crates host control root options start path ∧
      Settled crates host control root options finish path) ∧
    ∀ error, result = .error error → Proper crates host control root options start path →
      Reachable crates host control root start path → weather.fails

/-- The program is a step of the path, wherever it may be cut. -/
abbrev Steps (crates : Crates T) (host : Host) (weather : Weather) (control : ControlDir)
    (root : FsRoot) (options : WorktreeOptions) (path : ReceiptPath) (start : World)
    (program : Action Unit) : Prop :=
  program.run.Meets (fsMachine host weather)
    ((fsMachine host weather).Survives (Stepped crates host control root options path start))
    (StepEnds crates host weather control root options path start) start

/-- A path without a backup has nothing to do. -/
theorem steps_nothing (none : ∀ name expected, ¬ Names path name expected) :
    Steps crates host weather control root options path start (pure ()) := by
  refine ⟨.refl path start, fun _ => ⟨?_, ?_⟩, fun _ impossible => by cases impossible⟩
  · exact fun name expected names => absurd names (none name expected)
  · exact fun name expected names => absurd names (none name expected)

theorem steps_retain {target : TargetAccess} {change : IoError → WorktreeError}
    (valid : validateArtifactName name = .ok ()) (own : ownName name = true)
    (names : Names path name expected) (near : target.rootDevice = root.device)
    (walks : Walks host start root path.path target.parent) :
    Steps crates host weather control root options path start
      (orElse (control.retainBackupFrom crates.sha256 target name expected
        options.limits.maxSourceBytesPerFile) change) := by
  have evidence : ∀ seen, Exact crates.sha256 control.device
      options.limits.maxSourceBytesPerFile expected seen → ∀ recorded, Names path name recorded →
        Exact crates.sha256 control.device options.limits.maxSourceBytesPerFile recorded seen := by
    intro seen exact_ recorded also
    rw [(names.unique also).2]
    exact exact_
  unfold Steps orElse
  rw [Task.meets_except_adapt]
  refine retainBackupFrom_meets valid (Machine.admits_survives (.refl path start))
    (fun error cause => ?_) (fun seen exact_ beside inside => ?_)
    fun seen exact_ beside inside => ?_
  · refine ⟨.refl path start, (fun impossible => by cases impossible),
      fun failed _ proper reachable => cause ?_⟩
    obtain ⟨parent, seen, backup⟩ := proper name expected names
    refine ⟨near.trans reachable.near, reachable.housed, seen, backup.exact expected names, ?_⟩
    have here := backup.walks.unique walks
    subst here
    exact backup.lies
  · have backup : Backup crates host control root options start path name target.parent seen :=
      ⟨walks, evidence seen exact_, .inr ⟨beside, inside⟩⟩
    refine ⟨.refl path start, fun _ => ⟨?_, ?_⟩, fun _ impossible => by cases impossible⟩
    · intro other recorded also
      obtain ⟨rfl, rfl⟩ := names.unique also
      exact ⟨target.parent, seen, backup⟩
    · intro other recorded also
      obtain ⟨rfl, rfl⟩ := names.unique also
      exact ⟨target.parent, seen, backup, beside⟩
  · have backup : Backup crates host control root options start path name target.parent seen :=
      ⟨walks, evidence seen exact_, .inl ⟨beside, inside⟩⟩
    obtain ⟨stepped, settled⟩ := stepped_move own names backup beside inside
    have proper : Proper crates host control root options start path := by
      intro other recorded also
      obtain ⟨rfl, rfl⟩ := names.unique also
      exact ⟨target.parent, seen, backup⟩
    refine ⟨⟨.refl path start, fun left torn => torn.elim⟩, Machine.admits_survives stepped,
      ⟨stepped, fun _ => ⟨proper, settled⟩, fun _ impossible => by cases impossible⟩,
      fun fails error => ?_⟩
    exact ⟨stepped, (fun impossible => by cases impossible), fun _ _ _ _ => fails⟩

/-! ### All paths -/

/-- What the relocation of these paths does, or did before it was cut. -/
structure Ran (crates : Crates T) (host : Host) (control : ControlDir) (root : FsRoot)
    (options : WorktreeOptions) (paths : List ReceiptPath) (start finish : World) : Prop where
  relocated : Relocated control start finish
  others : ∀ slot : Slot, (∀ path ∈ paths, path.backupName ≠ some slot.name) →
    finish.look slot = start.look slot
  still : ∀ path ∈ paths, ¬ Proper crates host control root options start path →
    ∀ slot : Slot, path.backupName = some slot.name → finish.look slot = start.look slot
  kept : ∀ path ∈ paths, ∀ name expected parent seen, Names path name expected →
    Backup crates host control root options start path name parent seen →
      Lies finish (host.slot parent name) (host.slot control.dir name) seen

/-- The backups have names of their own, each a name the program makes up. -/
structure Distinct (paths : List ReceiptPath) : Prop where
  apart : paths.Pairwise fun path other => ∀ name, path.backupName = some name →
    other.backupName ≠ some name
  valid : ∀ path ∈ paths, ∀ name, path.backupName = some name →
    validateArtifactName name = .ok ()
  own : ∀ path ∈ paths, ∀ name, path.backupName = some name → ownName name = true

theorem Distinct.tail {paths : List ReceiptPath} (distinct : Distinct (path :: paths)) :
    Distinct paths :=
  ⟨(List.pairwise_cons.mp distinct.apart).2,
    fun other listed => distinct.valid other (List.mem_cons_of_mem _ listed),
    fun other listed => distinct.own other (List.mem_cons_of_mem _ listed)⟩

theorem Ran.refl (paths : List ReceiptPath) (world : World) :
    Ran crates host control root options paths world world :=
  ⟨.refl control world, fun _ _ => rfl, fun _ _ _ _ _ => rfl,
    fun _ _ _ _ _ _ _ backup => backup.lies⟩

/-- A step of another path leaves the entries of this one alone. -/
theorem Stepped.elsewhere {paths : List ReceiptPath} {other : ReceiptPath}
    (distinct : Distinct (path :: paths)) (listed : other ∈ paths)
    (stepped : Stepped crates host control root options path start middle) :
    ∀ slot : Slot, other.backupName = some slot.name → middle.look slot = start.look slot := by
  intro slot named
  refine stepped.others slot fun same => ?_
  exact (List.pairwise_cons.mp distinct.apart).1 other listed slot.name same named

theorem Stepped.proper_iff {paths : List ReceiptPath} {other : ReceiptPath}
    (distinct : Distinct (path :: paths)) (listed : other ∈ paths)
    (stepped : Stepped crates host control root options path start middle) :
    Proper crates host control root options middle other ↔
      Proper crates host control root options start other :=
  Undo.proper_iff (distinct.own other (List.mem_cons_of_mem _ listed)) stepped.relocated
    (stepped.elsewhere distinct listed)

/-- A step, and the rest of the run. -/
theorem Stepped.ran {paths : List ReceiptPath} (distinct : Distinct (path :: paths))
    (stepped : Stepped crates host control root options path start middle)
    (ran : Ran crates host control root options paths middle finish) :
    Ran crates host control root options (path :: paths) start finish where
  relocated := stepped.relocated.trans ran.relocated
  others := by
    intro slot apart
    rw [List.forall_mem_cons] at apart
    rw [ran.others slot apart.2, stepped.others slot apart.1]
  still := by
    intro other listed improper slot named
    rcases List.mem_cons.mp listed with rfl | later
    · rw [← stepped.still improper]
      refine ran.others slot fun another among same => ?_
      exact (List.pairwise_cons.mp distinct.apart).1 another among slot.name named same
    · have still : ¬ Proper crates host control root options middle other := fun proper =>
        improper ((stepped.proper_iff distinct later).mp proper)
      rw [ran.still other later still slot named]
      exact stepped.elsewhere distinct later slot named
  kept := by
    intro other listed name expected parent seen names backup
    have own := distinct.own _ listed name names.name
    rcases List.mem_cons.mp listed with rfl | later
    · have lies := stepped.kept name expected parent seen names backup
      have same : ∀ dir, finish.look (host.slot dir name) = middle.look (host.slot dir name) := by
        intro dir
        refine ran.others _ fun another among same => ?_
        rw [slot_of_own own] at same
        exact (List.pairwise_cons.mp distinct.apart).1 another among name names.name same
      unfold Lies at lies ⊢
      rw [same, same]
      exact lies
    · refine ran.kept other later name expected parent seen names ?_
      refine (backup_iff own stepped.relocated fun slot named => ?_).mpr backup
      exact stepped.elsewhere distinct later slot (by rw [named, names.name])

/-- What a run ends with. -/
def RunEnds (crates : Crates T) (host : Host) (weather : Weather) (control : ControlDir)
    (root : FsRoot) (options : WorktreeOptions) (paths : List ReceiptPath) (start : World)
    (result : Except WorktreeError Unit) (finish : World) : Prop :=
  Ran crates host control root options paths start finish ∧
    (result = .ok () → ∀ path ∈ paths, Proper crates host control root options start path ∧
      Settled crates host control root options finish path) ∧
    ∀ error, result = .error error →
      (∀ path ∈ paths, Proper crates host control root options start path ∧
        Reachable crates host control root start path) → weather.fails

theorem relocations_meet {ι : Type} {items : List ι} {shown : ι → ReceiptPath}
    {body : ι → Action Unit} (distinct : Distinct (items.map shown))
    (steps : ∀ item ∈ items, ∀ here, Relocated control start here →
      Steps crates host weather control root options (shown item) here (body item)) :
    (items.forM body).run.Meets (fsMachine host weather)
      ((fsMachine host weather).Survives
        (Ran crates host control root options (items.map shown) start))
      (RunEnds crates host weather control root options (items.map shown) start) start := by
  induction items generalizing start with
  | nil =>
      refine ⟨.refl _ start, fun _ path impossible => ?_, fun error impossible => ?_⟩
      · cases impossible
      · cases impossible
  | cons item rest ih =>
      rw [List.map_cons] at distinct ⊢
      change (body item >>= fun _ => rest.forM body).run.Meets _ _ _ _
      rw [Task.meets_except_bind]
      have widen : ∀ {middle left}, Stepped crates host control root options (shown item) start
          middle → Ran crates host control root options (rest.map shown) middle left →
            Ran crates host control root options (shown item :: rest.map shown) start left :=
        fun stepped ran => stepped.ran distinct ran
      have first := steps item List.mem_cons_self start (.refl control start)
      refine (Task.Meets.guard_mono first fun op here survives => ?_).mono
        fun result middle told => ?_
      · exact ⟨widen survives.1 (.refl _ here), fun left torn =>
          widen (survives.2 left torn) (.refl _ left)⟩
      obtain ⟨stepped, ended, failed⟩ := told
      cases result with
      | error error =>
          refine ⟨widen stepped (.refl _ middle), (fun impossible => by cases impossible),
            fun other same all => ?_⟩
          obtain ⟨proper, reachable⟩ := all _ List.mem_cons_self
          exact failed error rfl proper reachable
      | ok value =>
          obtain ⟨proper, settled⟩ := ended rfl
          have later := ih distinct.tail fun item among here relocated =>
            steps item (List.mem_cons_of_mem _ among) here (stepped.relocated.trans relocated)
          refine (Task.Meets.guard_mono later fun op here survives => ?_).mono
            fun result finish told => ?_
          · exact ⟨widen stepped survives.1, fun left torn =>
              widen stepped (survives.2 left torn)⟩
          obtain ⟨ran, all, stuck⟩ := told
          refine ⟨widen stepped ran, fun same => ?_, fun error same each => ?_⟩
          · rw [List.forall_mem_cons]
            refine ⟨⟨proper, settled.stays ran.relocated⟩, ?_⟩
            intro path listed
            obtain ⟨proper, settled⟩ := all same path listed
            exact ⟨(stepped.proper_iff distinct listed).mp proper, settled⟩
          · refine stuck error same fun path listed => ?_
            obtain ⟨proper, reachable⟩ := each path (List.mem_cons_of_mem _ listed)
            refine ⟨(stepped.proper_iff distinct listed).mpr proper, ?_⟩
            exact reachable.stays proper stepped.relocated

/-! ### Names -/

theorem Bound.distinct (bound : Bound receipt) : Distinct receipt.paths where
  apart := by
    rw [List.pairwise_iff_getElem]
    intro first second left right before name named same
    have one := bound.names first _ (List.getElem?_eq_getElem left) name named
    have other := bound.names second _ (List.getElem?_eq_getElem right) name same
    have equal := artifactName_injective (one.symm.trans other)
    omega
  valid := by
    intro path listed name named
    obtain ⟨position, found⟩ := List.mem_iff_getElem?.mp listed
    rw [bound.names position path found name named]
    exact validateArtifactName_of_id position bound.id (.inr rfl)
  own := by
    intro path listed name named
    obtain ⟨position, found⟩ := List.mem_iff_getElem?.mp listed
    rw [bound.names position path found name named]
    exact ownName_of_artifactName position bound.id (.inr rfl)

/-! ### The two relocations -/

theorem steps_relocate (distinct : Distinct receipt.paths) (item : ReceiptPath × Nat)
    (listed : item.1 ∈ receipt.paths) (program : Action Unit)
    (same : program = match item.1.backupName, item.1.backup with
      | some name, some expected => do
          let located (message : String) (error : IoError) : WorktreeError :=
            ((((undoIo .recover message error).atPath item.1.path).atFile item.2).inTransaction
              receipt.id).requiringRecovery
          let access ← orElse (root.openTarget crates item.1.path)
            (located "failed to reopen a retained backup parent")
          orElse (control.retainBackupFrom crates.sha256 access name expected
              options.limits.maxSourceBytesPerFile)
            (located "failed to move retained backup into the state directory")
      | _, _ => return ()) :
    Steps crates host weather control root options item.1 start program := by
  subst same
  cases named : item.1.backupName with
  | none =>
      refine steps_nothing fun name expected names => ?_
      cases named.symm.trans names.name
  | some name =>
      cases recorded : item.1.backup with
      | none =>
          refine steps_nothing fun name expected names => ?_
          cases recorded.symm.trans names.recorded
      | some expected =>
          have names : Names item.1 name expected := ⟨named, recorded⟩
          have safe : (fsMachine host weather).Admits ((fsMachine host weather).Survives
              (Stepped crates host control root options item.1 start)) start :=
            Machine.admits_survives (.refl item.1 start)
          dsimp only
          unfold Steps
          rw [Task.meets_except_bind]
          unfold orElse
          rw [Task.meets_except_adapt]
          have opened : (root.openTarget crates item.1.path).run.Meets (fsMachine host weather)
              ((fsMachine host weather).Survives
                (Stepped crates host control root options item.1 start))
              (fun result finish => finish = start ∧ ∀ access, result = .ok access →
                (∃ entered, Confined crates host start root item.1.path access entered) ∧
                  access.rootDevice = root.device ∧
                  Openable crates host start root item.1.path access.parent) start :=
            meets_of_yields (open_confines item.1.path) safe
          have cause : (root.openTarget crates item.1.path).run.Meets (fsMachine host weather)
              (fun _ _ => True) (fun result _ => ∀ error, result = .error error →
                Reachable crates host control root start item.1 → weather.fails) start := by
            by_cases reachable : Reachable crates host control root start item.1
            · obtain ⟨parent, openable⟩ := reachable.opens name expected names
              refine ((openTarget_sure openable).meets fun _ _ => trivial).mono
                fun result finish told error same _ => ?_
              subst same
              exact told.2
            · exact Task.Ends.meets (Task.ends_any fun result error _ reaches =>
                absurd reaches reachable) start
          refine (opened.and cause).mono fun result finish told => ?_
          obtain ⟨⟨rfl, good⟩, fault⟩ := told
          cases result with
          | error error =>
              refine ⟨.refl item.1 finish, (fun impossible => by cases impossible),
                fun failed _ _ reachable => fault error rfl reachable⟩
          | ok access =>
              obtain ⟨⟨entered, confined⟩, near, openable⟩ := good access rfl
              exact steps_retain (distinct.valid item.1 listed name named)
                (distinct.own item.1 listed name named) names near
                openable.walks

/-- A run of the relocation that recovery does. -/
theorem relocateBackups_meets (bound : Bound receipt) :
    (relocateBackups crates control root receipt options).run.Meets (fsMachine host weather)
      ((fsMachine host weather).Survives
        (Ran crates host control root options receipt.paths start))
      (RunEnds crates host weather control root options receipt.paths start) start := by
  have listed : receipt.paths.zipIdx.map Prod.fst = receipt.paths := List.zipIdx_map_fst 0 _
  have distinct := bound.distinct
  rw [← listed] at distinct
  have all : (relocateBackups crates control root receipt options).run.Meets
      (fsMachine host weather) ((fsMachine host weather).Survives
        (Ran crates host control root options (receipt.paths.zipIdx.map Prod.fst) start))
      (RunEnds crates host weather control root options (receipt.paths.zipIdx.map Prod.fst) start)
      start := by
    refine relocations_meet distinct fun item among here _ => ?_
    have member : item.1 ∈ receipt.paths := by
      rw [← listed]
      exact List.mem_map_of_mem among
    exact steps_relocate bound.distinct item member _ rfl
  rw [listed] at all
  exact all

/-- A transaction whose paths are those of the receipt, opened below the root. -/
structure Retains (host : Host) (root : FsRoot) (control : ControlDir) (options : WorktreeOptions)
    (receipt : StoredReceipt) (world : World) (transaction : PreparedWorktreeTransaction) :
    Prop where
  control : transaction.control = control
  options : transaction.options = options
  paths : transaction.paths.map receiptPath = receipt.paths
  near : ∀ path ∈ transaction.paths, path.access.rootDevice = root.device
  walks : ∀ path ∈ transaction.paths, Walks host world root path.path path.access.parent

/-- A run of the relocation at the end of a commit. -/
theorem retainBackups_meets (bound : Bound receipt) {transaction : PreparedWorktreeTransaction}
    (retains : Retains host root control options receipt start transaction) :
    (Commit.retainBackups crates transaction).run.Meets (fsMachine host weather)
      ((fsMachine host weather).Survives
        (Ran crates host control root options receipt.paths start))
      (RunEnds crates host weather control root options receipt.paths start) start := by
  have listed : transaction.paths.zipIdx.map (fun item => receiptPath item.1) = receipt.paths := by
    have names := congrArg (List.map receiptPath) (List.zipIdx_map_fst 0 transaction.paths)
    rw [List.map_map, retains.paths] at names
    exact names
  have distinct := bound.distinct
  rw [← listed] at distinct
  have all : (Commit.retainBackups crates transaction).run.Meets (fsMachine host weather)
      ((fsMachine host weather).Survives (Ran crates host control root options
        (transaction.paths.zipIdx.map fun item => receiptPath item.1) start))
      (RunEnds crates host weather control root options
        (transaction.paths.zipIdx.map fun item => receiptPath item.1) start) start := by
    refine relocations_meet distinct fun item among here relocated => ?_
    have member : item.1 ∈ transaction.paths := by
      rw [← List.zipIdx_map_fst 0 transaction.paths]
      exact List.mem_map.mpr ⟨item, among, rfl⟩
    change Steps crates host weather control root options (receiptPath item.1) here
      (Commit.retainBackup crates transaction item.1 item.2)
    unfold Commit.retainBackup
    cases named : item.1.backupName with
    | none =>
        refine steps_nothing fun name expected names => ?_
        cases named.symm.trans names.name
    | some name =>
        cases recorded : item.1.backup with
        | none =>
            refine steps_nothing fun name expected names => ?_
            cases recorded.symm.trans names.recorded
        | some expected =>
            dsimp only
            rw [retains.control, retains.options]
            have among : receiptPath item.1 ∈
                transaction.paths.zipIdx.map fun item => receiptPath item.1 :=
              List.mem_map.mpr ⟨item, among, rfl⟩
            exact steps_retain (distinct.valid _ among name named) (distinct.own _ among name named)
              ⟨named, recorded⟩ (retains.near _ member)
              (relocated.walks_iff.mpr (retains.walks _ member))
  rw [listed] at all
  exact all

/-! ### Runs after runs -/

/-- One of the two relocations, from a world in which its targets are open. -/
inductive Relocation (crates : Crates T) (host : Host) (root : FsRoot) (control : ControlDir)
    (options : WorktreeOptions) (receipt : StoredReceipt) (world : World) : Action Unit → Prop
  | relocate : Relocation crates host root control options receipt world
      (relocateBackups crates control root receipt options)
  | retain {transaction : PreparedWorktreeTransaction}
      (retains : Retains host root control options receipt world transaction) :
      Relocation crates host root control options receipt world
        (Commit.retainBackups crates transaction)

/-- Relocations one after the other, in any weather, each run to its end or cut by
a crash. -/
inductive Relocations (crates : Crates T) (host : Host) (root : FsRoot) (control : ControlDir)
    (options : WorktreeOptions) (receipt : StoredReceipt) (start : World) : World → Prop
  | none : Relocations crates host root control options receipt start start
  | ended {weather : Weather} {here left : World} {program : Action Unit}
      {result : Except WorktreeError Unit}
      (before : Relocations crates host root control options receipt start here)
      (relocation : Relocation crates host root control options receipt here program)
      (returned : program.run.Returns (fsMachine host weather) here result left) :
      Relocations crates host root control options receipt start left
  | cut {weather : Weather} {here left : World} {program : Action Unit}
      (before : Relocations crates host root control options receipt start here)
      (relocation : Relocation crates host root control options receipt here program)
      (crashed : program.run.Crashes (fsMachine host weather) here left) :
      Relocations crates host root control options receipt start left.reboot

theorem Relocation.meets (bound : Bound receipt) {program : Action Unit}
    (relocation : Relocation crates host root control options receipt start program) :
    program.run.Meets (fsMachine host weather)
      ((fsMachine host weather).Survives
        (Ran crates host control root options receipt.paths start))
      (RunEnds crates host weather control root options receipt.paths start) start := by
  cases relocation with
  | relocate => exact relocateBackups_meets bound
  | retain retains => exact retainBackups_meets bound retains

theorem Ran.reboot {paths : List ReceiptPath}
    (ran : Ran crates host control root options paths start finish) :
    Ran crates host control root options paths start finish.reboot :=
  ⟨⟨ran.relocated.inodes, ran.relocated.directories, ran.relocated.elsewhere,
    ran.relocated.inside⟩, ran.others, ran.still, ran.kept⟩

/-- What has been kept by the runs so far. -/
structure Kept (crates : Crates T) (host : Host) (control : ControlDir) (root : FsRoot)
    (options : WorktreeOptions) (paths : List ReceiptPath) (start later : World) : Prop where
  relocated : Relocated control start later
  others : ∀ slot : Slot, (∀ path ∈ paths, path.backupName ≠ some slot.name) →
    later.look slot = start.look slot
  still : ∀ path ∈ paths, ¬ Proper crates host control root options start path →
    ∀ slot : Slot, path.backupName = some slot.name → later.look slot = start.look slot
  backup : ∀ path ∈ paths, ∀ name expected parent seen, Names path name expected →
    Backup crates host control root options start path name parent seen →
      Backup crates host control root options later path name parent seen

theorem Kept.ran {paths : List ReceiptPath} (distinct : Distinct paths)
    (kept : Kept crates host control root options paths start middle)
    (ran : Ran crates host control root options paths middle finish) :
    Kept crates host control root options paths start finish where
  relocated := kept.relocated.trans ran.relocated
  others := fun slot apart => (ran.others slot apart).trans (kept.others slot apart)
  still := by
    intro path listed improper slot named
    have unmoved := kept.still path listed improper
    have later : ¬ Proper crates host control root options middle path := fun proper =>
      improper ((proper_iff (distinct.own path listed) kept.relocated unmoved).mp proper)
    exact (ran.still path listed later slot named).trans (unmoved slot named)
  backup := by
    intro path listed name expected parent seen names backup
    have here := kept.backup path listed name expected parent seen names backup
    exact ⟨ran.relocated.walks_iff.mpr here.walks, here.exact,
      ran.kept path listed name expected parent seen names here⟩

theorem Relocations.kept (bound : Bound receipt)
    (runs : Relocations crates host root control options receipt start finish) :
    Kept crates host control root options receipt.paths start finish := by
  induction runs with
  | none =>
      exact ⟨.refl control start, fun _ _ => rfl, fun _ _ _ _ _ => rfl,
        fun _ _ _ _ _ _ _ backup => backup⟩
  | ended before relocation returned ih =>
      have ended := (relocation.meets bound).returns returned
      exact ih.ran bound.distinct ended.1
  | cut before relocation crashed ih =>
      have left := (relocation.meets bound).crashes (fun _ _ ended => ended.1) crashed
      exact ih.ran bound.distinct left.reboot

/-- A last run that nothing interrupts ends well, with every backup in the state
directory. -/
theorem Kept.relocates (bound : Bound receipt)
    (kept : Kept crates host control root options receipt.paths start world)
    (proper : ∀ path ∈ receipt.paths, Proper crates host control root options start path ∧
      Reachable crates host control root start path) :
    ∃ finish, (relocateBackups crates control root receipt options).run.run (fsKernel host) world =
        (.ok (), finish) ∧
      ∀ path ∈ receipt.paths, ∀ name expected parent seen, Names path name expected →
        Backup crates host control root options start path name parent seen →
          finish.look (host.slot parent name) = none ∧
            finish.look (host.slot control.dir name) = some seen := by
  have each : ∀ path ∈ receipt.paths, Proper crates host control root options world path ∧
      Reachable crates host control root world path := by
    intro path listed
    obtain ⟨before, reachable⟩ := proper path listed
    refine ⟨fun name expected names => ?_, reachable.stays before kept.relocated⟩
    obtain ⟨parent, seen, backup⟩ := before name expected names
    exact ⟨parent, seen, kept.backup path listed name expected parent seen names backup⟩
  have meets : (relocateBackups crates control root receipt options).run.Meets
      (fsMachine host .calm) _ _ world := relocateBackups_meets bound
  obtain ⟨ran, ended, failed⟩ := meets.returns (returns_run trivial _ world)
  have fine : ((relocateBackups crates control root receipt options).run.run (fsKernel host)
      world).1 = .ok () := by
    cases result : ((relocateBackups crates control root receipt options).run.run (fsKernel host)
        world).1 with
    | ok value => rfl
    | error error => exact (failed error result each).elim
  refine ⟨_, Prod.ext fine rfl, fun path listed name expected parent seen names backup => ?_⟩
  have last :=
    (kept.ran bound.distinct ran).backup path listed name expected parent seen names backup
  obtain ⟨_, settled⟩ := ended fine path listed
  obtain ⟨other, _, found, absent⟩ := settled name expected names
  rw [found.walks.unique last.walks] at absent
  rcases last.lies with ⟨shows, _⟩ | there
  · cases absent.symm.trans shows
  · exact there

/-! ### The verdict -/

/-- Whatever relocations ran before, and wherever they were cut, no backup is lost
or replaced, and no entry of another name is touched; if each was exact and in one
place, and every target can still be opened, the next one brings the rest into the
state directory. A backup that is not exact in exactly one place stays as it is, and
no run over it ends well. -/
theorem relocation_restarts (crates : Crates T) (host : Host) (root : FsRoot)
    (control : ControlDir) (options : WorktreeOptions) (receipt : StoredReceipt) (start : World)
    (bound : Bound receipt) :
    (∀ later, Relocations crates host root control options receipt start later →
      (∀ path ∈ receipt.paths, ∀ name expected parent seen, Names path name expected →
        Backup crates host control root options start path name parent seen →
          Lies later (host.slot parent name) (host.slot control.dir name) seen) ∧
      (∀ slot : Slot, (∀ path ∈ receipt.paths, path.backupName ≠ some slot.name) →
        later.look slot = start.look slot) ∧
      (∀ path ∈ receipt.paths, ¬ Proper crates host control root options start path →
        ∀ name, path.backupName = some name → ∀ dir,
          later.look (host.slot dir name) = start.look (host.slot dir name)) ∧
      ((∀ path ∈ receipt.paths, Proper crates host control root options start path ∧
          Reachable crates host control root start path) →
        ∃ finish, (relocateBackups crates control root receipt options).run.run (fsKernel host)
            later = (.ok (), finish) ∧
          ∀ path ∈ receipt.paths, ∀ name expected parent seen, Names path name expected →
            Backup crates host control root options start path name parent seen →
              finish.look (host.slot parent name) = none ∧
                finish.look (host.slot control.dir name) = some seen)) ∧
    ∀ (weather : Weather) (program : Action Unit) (result : Except WorktreeError Unit)
      (finish : World), Relocation crates host root control options receipt start program →
      program.run.Returns (fsMachine host weather) start result finish →
      ∀ path ∈ receipt.paths, ¬ Proper crates host control root options start path →
        result.isOk = false ∧ ∀ name, path.backupName = some name → ∀ dir,
          finish.look (host.slot dir name) = start.look (host.slot dir name) := by
  refine ⟨fun later runs => ⟨?_, (runs.kept bound).others, ?_, fun proper => ?_⟩, ?_⟩
  · intro path listed name expected parent seen names backup
    exact ((runs.kept bound).backup path listed name expected parent seen names backup).lies
  · intro path listed improper name named dir
    refine (runs.kept bound).still path listed improper _ ?_
    rw [slot_of_own (bound.distinct.own _ listed name named)]
    exact named
  · exact (runs.kept bound).relocates bound proper
  · intro weather program result finish relocation returned path listed improper
    obtain ⟨ran, ended, _⟩ := (relocation.meets bound).returns returned
    constructor
    · cases result with
      | ok value => exact absurd (ended rfl path listed).1 improper
      | error error => rfl
    · intro name named dir
      have own := bound.distinct.own _ listed name named
      refine ran.still path listed improper _ ?_
      rw [slot_of_own own]
      exact named

/-! ### One backup -/

section Sole

def soleId : String := "00000000000000000000000000000000"

def soleName : String := artifactName soleId 0 "backup"

/-- A file of one byte. -/
def soleSeen : Seen := ⟨4, ⟨.file, 0, [97], 0o644⟩, 1⟩

/-- The backup of this path, which its commit has deleted. -/
def solePath (path : String) : ReceiptPath :=
  { index := 0
    path
    before := .present (soleSeen.evidence Sha256.digest)
    after := .absent
    backupName := some soleName
    backup := some (soleSeen.evidence Sha256.digest) }

def soleReceipt (path : String) : StoredReceipt :=
  ⟨{ schema
     transactionId := soleId
     planFingerprint := Sha256.digest []
     beforeFingerprint := Sha256.digest []
     afterFingerprint := Sha256.digest []
     retainedBytes := 1
     paths := [solePath path] }, Sha256.digest [], 0⟩

/-- The backup lies in this directory. -/
def soleWorld (dir : Ino) : World :=
  World.tree [(⟨0, ".weavatrix"⟩, 1), (⟨1, "worktree"⟩, 2), (⟨dir, soleName⟩, 4)] fun ino =>
    if ino ≤ 2 then ⟨.directory, 0, [], 0o755⟩ else soleSeen.inode

/-- No file can be read whole under these options. -/
def narrowOptions : WorktreeOptions :=
  { plainOptions with limits := { plainOptions.limits with maxSourceBytesPerFile := 0 } }

theorem soleReceipt_bound (path : String) : Bound (soleReceipt path) where
  id := by
    change isValidId soleId = true
    decide
  names := by
    intro position found listed name named
    cases position with
    | zero =>
        cases listed
        cases named
        rfl
    | succ position => cases listed

private theorem soleSeen_file : soleSeen.File 0 := ⟨rfl, rfl⟩

/-- One exact backup in the state directory, whose target directory is gone, and
one beside its target, longer than what the options let be read: neither run ends
well. -/
theorem relocation_refused :
    (∃ seen, Names (solePath "d/a") soleName (seen.evidence plainCrates.sha256) ∧
      seen.File 0 ∧ seen.links = 1 ∧
      Lies (soleWorld 2) (Host.plain.slot 0 soleName) (Host.plain.slot 2 soleName) seen ∧
      ((relocateBackups plainCrates ⟨2, 0⟩ ⟨0, 0⟩ (soleReceipt "d/a") plainOptions).run.run
        (fsKernel .plain) (soleWorld 2)).1.isOk = false) ∧
    ∃ seen, Names (solePath "a") soleName (seen.evidence plainCrates.sha256) ∧
      seen.File 0 ∧ seen.links = 1 ∧
      Lies (soleWorld 0) (Host.plain.slot 0 soleName) (Host.plain.slot 2 soleName) seen ∧
      ((relocateBackups plainCrates ⟨2, 0⟩ ⟨0, 0⟩ (soleReceipt "a") narrowOptions).run.run
        (fsKernel .plain) (soleWorld 0)).1.isOk = false := by
  refine ⟨⟨soleSeen, ⟨rfl, rfl⟩, soleSeen_file, rfl, .inr ⟨?_, ?_⟩, ?_⟩,
    ⟨soleSeen, ⟨rfl, rfl⟩, soleSeen_file, rfl, .inl ⟨?_, ?_⟩, ?_⟩⟩
  · decide +kernel
  · decide +kernel
  · decide +kernel
  · decide +kernel
  · decide +kernel
  · decide +kernel

/-- A backup beside its target, before any run. -/
theorem relocation_restarts_sole :
    ∃ finish, (relocateBackups plainCrates ⟨2, 0⟩ ⟨0, 0⟩ (soleReceipt "a") plainOptions).run.run
        (fsKernel .plain) (soleWorld 0) = (.ok (), finish) ∧
      finish.look (Host.plain.slot 0 soleName) = none ∧
      finish.look (Host.plain.slot 2 soleName) = some soleSeen := by
  have confined : Confined plainCrates .plain (soleWorld 0) ⟨0, 0⟩ "a" ⟨0, "a", "a", 0, ⟨0, 0⟩⟩
      [] := by
    refine ⟨by decide, ?_, by decide, rfl, by simp, by simp, ?_⟩
    · have segments : (splitPath "a").dropLast = [] := by decide
      rw [segments]
      trivial
    · intro reserved entry seen shows
      have absent : (soleWorld 0).look (Host.plain.slot 0 "a") = none := by decide +kernel
      cases absent.symm.trans shows
  have backup : Backup plainCrates .plain ⟨2, 0⟩ ⟨0, 0⟩ plainOptions (soleWorld 0)
      (solePath "a") soleName 0 soleSeen := by
    refine ⟨confined.walks, ?_, .inl ⟨by decide +kernel, by decide +kernel⟩⟩
    intro expected names
    refine ⟨soleSeen_file, rfl, ⟨by decide, by decide⟩, ?_⟩
    exact Option.some.inj names.recorded
  have only : ∀ path ∈ (soleReceipt "a").paths, path = solePath "a" := fun path listed =>
    List.mem_singleton.mp listed
  have proper : ∀ path ∈ (soleReceipt "a").paths,
      Proper plainCrates .plain ⟨2, 0⟩ ⟨0, 0⟩ plainOptions (soleWorld 0) path ∧
        Reachable plainCrates .plain ⟨2, 0⟩ ⟨0, 0⟩ (soleWorld 0) path := by
    intro path listed
    obtain rfl := only path listed
    refine ⟨fun name expected names => ?_, rfl, rfl, fun name expected names => ?_⟩
    · cases names.name
      exact ⟨0, soleSeen, backup⟩
    · exact ⟨0, rfl, ⟨_, _, confined, rfl⟩, by decide, rfl⟩
  obtain ⟨finish, ran, settled⟩ := ((relocation_restarts plainCrates .plain ⟨0, 0⟩ ⟨2, 0⟩
    plainOptions (soleReceipt "a") (soleWorld 0) (soleReceipt_bound "a")).1 (soleWorld 0)
    .none).2.2.2 proper
  exact ⟨finish, ran, settled (solePath "a") (List.mem_singleton_self _) soleName _ 0 soleSeen
    ⟨rfl, rfl⟩ backup⟩

end Sole

end Undo

end Worktree
