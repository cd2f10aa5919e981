import Worktree.Crates.Plain
import Worktree.Filesystem.Bypassing
import Mathlib.Logic.Relation
/-
Where the walk to a target may end.

Every segment but the last is looked up in the directory reached so far, and the
directory it leads to is compared with the reserved entries of the root. In a
tree a directory that lies below a reserved one can only be reached through it,
so that no spelling leads there.
-/

namespace Worktree

open CrashLogic

/-! ### Walks -/

/-- The segments lead from the directory through these entries, one by one. -/
def Enters (host : Host) (world : World) : Ino → List String → List Seen → Prop
  | _, [], [] => True
  | dir, segment :: rest, seen :: further =>
      world.look (host.slot dir segment) = some seen ∧ Enters host world seen.ino rest further
  | _, _, _ => False

/-- The entry that the segments lead to, whether or not something is there. -/
def resolve (host : Host) (world : World) : Ino → List String → Option Slot
  | _, [] => none
  | dir, [name] => some (host.slot dir name)
  | dir, segment :: rest =>
      (world.look (host.slot dir segment)).bind fun seen => resolve host world seen.ino rest

/-- The directory a walk ends in. -/
def lastDir (start : Ino) (entered : List Seen) : Ino :=
  (entered.getLast?.map Seen.ino).getD start

/-- An entry of the root that is kept for the state of transactions. -/
def ReservedEntry (host : Host) (world : World) (root : FsRoot) (reserved : Seen) : Prop :=
  ∃ name ∈ reservedRoots, world.look (host.slot root.dir name) = some reserved

/-- The access was found by walking real directories of the root's device, none
of them reserved, and its own entry is not reserved either. -/
structure Confined {T : Type} (crates : Crates T) (host : Host) (world : World) (root : FsRoot)
    (path : String) (access : TargetAccess) (entered : List Seen) : Prop where
  spelling : (splitPath (crates.portablePathKey path)).headD "" ∉ reservedRoots
  steps : Enters host world root.dir (splitPath path).dropLast entered
  name : (splitPath path).getLast? = some access.name
  parent : access.parent = lastDir root.dir entered
  directories : ∀ seen ∈ entered, seen.inode.kind = .directory ∧
    seen.inode.device = root.device
  clear : ∀ reserved, ReservedEntry host world root reserved →
    ∀ seen ∈ entered, seen.identity ≠ reserved.identity
  final : ∀ reserved, ReservedEntry host world root reserved →
    ∀ seen, world.look (access.slot host) = some seen → seen.identity ≠ reserved.identity

/-- What a target opens with: a valid path, a walk and a directory of the device
at its end. -/
structure Openable (crates : Crates T) (host : Host) (world : World) (root : FsRoot) (path : String)
    (parent : Ino) : Prop where
  valid : crates.validatePlanPath path 4096 = .ok ()
  walk : ∃ access entered, Confined crates host world root path access entered ∧
    access.parent = parent
  real : (world.inodes parent).kind ≠ .symlink
  near : (world.inodes parent).device = root.device

/-- One directory has an entry for the other. -/
def Contains (world : World) (outer inner : Ino) : Prop :=
  ∃ slot seen, world.look slot = some seen ∧ seen.inode.kind = .directory ∧
    slot.dir = outer ∧ seen.ino = inner

/-- One directory lies at or below the other. -/
def Below (world : World) : Ino → Ino → Prop :=
  Relation.ReflTransGen (Contains world)

/-- A directory has one entry, whatever names lead to it, and the root has none. -/
structure Tree (world : World) (root : Ino) : Prop where
  once : ∀ left right seen other, world.look left = some seen → world.look right = some other →
    seen.inode.kind = .directory → seen.ino = other.ino → left = right
  top : ∀ slot seen, world.look slot = some seen → seen.ino ≠ root

section

variable {T : Type} {crates : Crates T} {host : Host} {weather : Weather} {world : World}
  {root : FsRoot}

theorem lastDir_cons (start : Ino) (seen : Seen) (further : List Seen) :
    lastDir start (seen :: further) = lastDir seen.ino further := by
  unfold lastDir
  rw [List.getLast?_cons]
  cases further.getLast? <;> rfl

/-! ### The reserved entries -/

/-- An entry that is looked at is the one there, or it is not there. -/
theorem attempt_symlinkMetadata_yields (dir : Ino) (name : String) :
    Task.Yields (fsMachine host weather) (fun _ => False) (fun here => here = world)
      (attempt (perform (.symlinkMetadata dir name))) fun result =>
        (∀ metadata, result = .ok metadata → ∃ seen,
          world.look (host.slot dir name) = some seen ∧ metadata = seen.metadata) ∧
        ∀ error, result = .error error → error.kind = .notFound →
          world.look (host.slot dir name) = none := by
  have quiet : (fsMachine host weather).Quiet (.io (.symlinkMetadata dir name)) :=
    quiet_symlinkMetadata dir name
  refine Task.yields_lift ⟨.inl quiet, fun start result finish knows stepped => ?_⟩
  have same := (quiet start).2 result finish stepped
  subst same knows
  rcases stepped with executed | ⟨_, error, rfl, _, missing⟩
  · have answered := congrArg Prod.fst executed
    simp only [FsCall.exec] at answered
    cases shown : finish.look (host.slot dir name) with
    | none =>
        rw [shown] at answered
        subst answered
        refine ⟨fun metadata impossible => ?_, fun _ _ _ => rfl⟩
        cases impossible
    | some seen =>
        rw [shown] at answered
        subst answered
        refine ⟨fun metadata same => ?_, fun error impossible => ?_⟩
        · cases same
          exact ⟨seen, rfl, rfl⟩
        · cases impossible
  · refine ⟨fun metadata impossible => ?_, fun other same unknown => ?_⟩
    · cases impossible
    · cases same
      rcases missing unknown with absent | ⟨_, removal⟩
      · simpa [FsCall.present] using absent
      · exact removal.elim

theorem reservedRootIdentity_yields (name : String) :
    Task.Yields (fsMachine host weather) (fun _ => False) (fun here => here = world)
      (reservedRootIdentity root name) fun found =>
        found = (world.look (host.slot root.dir name)).map Seen.identity := by
  unfold reservedRootIdentity
  refine Task.Yields.bind (attempt_symlinkMetadata_yields root.dir name) fun result told => ?_
  cases result with
  | ok metadata =>
      obtain ⟨seen, shows, rfl⟩ := told.1 metadata rfl
      refine Task.yields_pure _ ?_
      rw [shows]
      rfl
  | error error =>
      refine yields_ite (fun missing => Task.yields_pure _ ?_) fun _ => Task.yields_throw _
      rw [told.2 error rfl missing]
      rfl

theorem reservedRootIdentities_yields :
    Task.Yields (fsMachine host weather) (fun _ => False) (fun here => here = world)
      (reservedRootIdentities root) fun found =>
        found = reservedRoots.map fun name =>
          (world.look (host.slot root.dir name)).map Seen.identity := by
  unfold reservedRootIdentities
  refine Task.Yields.bind (reservedRootIdentity_yields ".git") fun git first => ?_
  refine Task.Yields.bind (reservedRootIdentity_yields ".weavatrix") fun own second => ?_
  refine Task.yields_pure _ ?_
  rw [first, second]
  rfl

/-- What is not rejected is none of the reserved entries. -/
theorem rejectReservedIdentity_ok {metadata : Metadata} {seen : Seen}
    (same : metadata.identity = seen.identity)
    (passed : rejectReservedIdentity metadata (reservedRoots.map fun name =>
      (world.look (host.slot root.dir name)).map Seen.identity) = .ok ()) :
    ∀ reserved, ReservedEntry host world root reserved → seen.identity ≠ reserved.identity := by
  rintro reserved ⟨name, among, shows⟩ equal
  unfold rejectReservedIdentity at passed
  have listed : (reservedRoots.map fun name =>
      (world.look (host.slot root.dir name)).map Seen.identity).contains
        (some metadata.identity) = true := by
    rw [List.contains_iff_mem, List.mem_map]
    refine ⟨name, among, ?_⟩
    rw [shows, same, equal]
    rfl
  rw [if_pos listed] at passed
  cases passed

/-! ### The walk -/

theorem openSegment_yields (parent : Ino) (segment : String) :
    Task.Yields (fsMachine host weather) (fun _ => False) (fun here => here = world)
      (openSegment parent segment) fun dir => ∃ seen,
        world.look (host.slot parent segment) = some seen ∧ seen.inode.kind = .directory ∧
          dir = seen.ino := by
  unfold openSegment
  have opened : Task.Yields (fsMachine host weather) (fun _ => False) (fun here => here = world)
      (perform (.openDir parent segment)) fun dir => ∃ seen,
        world.look (host.slot parent segment) = some seen ∧ seen.inode.kind = .directory ∧
          dir = seen.ino := by
    refine yields_answer (.inl (quiet_openDir parent segment)) ?_
    rintro here dir rfl answered
    simp only [FsCall.exec] at answered
    cases shown : here.look (host.slot parent segment) with
    | none =>
        rw [shown] at answered
        cases answered
    | some seen =>
        rw [shown] at answered
        cases kind : seen.inode.kind with
        | directory =>
            simp only [kind] at answered
            cases answered
            exact ⟨seen, rfl, kind, rfl⟩
        | file =>
            simp only [kind] at answered
            cases answered
        | symlink =>
            simp only [kind] at answered
            cases answered
  refine Task.Yields.bind (yields_attempt opened) fun result good => ?_
  cases result with
  | ok dir => exact Task.yields_pure _ (good dir rfl)
  | error openError =>
      refine Task.Yields.bind (yields_attempt (yields_quiet (quiet_symlinkMetadata _ _)))
        fun result _ => ?_
      cases result with
      | ok metadata => exact Task.yields_throw _
      | error error => exact Task.yields_throw _

theorem dirMetadata_yields (dir : Ino) :
    Task.Yields (fsMachine host weather) (fun _ => False) (fun here => here = world)
      (perform (.dirMetadata dir)) fun metadata => metadata = (world.seen dir).metadata := by
  refine yields_answer (.inl (quiet_dirMetadata dir)) ?_
  rintro here metadata rfl answered
  exact (Except.ok.inj answered).symm

theorem enterSegment_yields (parent : Ino) (segment : String) :
    Task.Yields (fsMachine host weather) (fun _ => False) (fun here => here = world)
      (enterSegment root.device (reservedRoots.map fun name =>
        (world.look (host.slot root.dir name)).map Seen.identity) parent segment) fun next =>
        ∃ seen, world.look (host.slot parent segment) = some seen ∧ next = seen.ino ∧
          (seen.inode.kind = .directory ∧ seen.inode.device = root.device) ∧
          ∀ reserved, ReservedEntry host world root reserved →
            seen.identity ≠ reserved.identity := by
  unfold enterSegment
  refine Task.Yields.bind (yields_quiet (quiet_symlinkMetadata _ _)) fun metadata _ => ?_
  refine yields_check fun _ => ?_
  refine Task.Yields.bind (openSegment_yields parent segment) fun dir opened => ?_
  obtain ⟨seen, shows, directory, rfl⟩ := opened
  refine Task.Yields.bind (dirMetadata_yields seen.ino) fun metadata read => ?_
  rw [seen_of_look shows] at read
  subst read
  refine yields_check fun _ => ?_
  refine yields_check fun device => ?_
  refine Task.Yields.bind yields_liftExcept fun passed accepted => ?_
  refine Task.yields_pure _ ⟨seen, shows, rfl, ⟨directory, of_not_not device⟩, ?_⟩
  exact rejectReservedIdentity_ok rfl accepted

/-- Every step of the walk is an entry of the directory before it. -/
theorem descend_yields (parent : Ino) (segments : List String) :
    Task.Yields (fsMachine host weather) (fun _ => False) (fun here => here = world)
      (descend root.device (reservedRoots.map fun name =>
        (world.look (host.slot root.dir name)).map Seen.identity) parent segments) fun found =>
        ∃ entered, Enters host world parent segments.dropLast entered ∧
          found.2 = segments.getLast? ∧ found.1 = lastDir parent entered ∧
          (∀ seen ∈ entered, seen.inode.kind = .directory ∧ seen.inode.device = root.device) ∧
          ∀ reserved, ReservedEntry host world root reserved →
            ∀ seen ∈ entered, seen.identity ≠ reserved.identity := by
  induction segments using List.twoStepInduction generalizing parent with
  | nil => exact Task.yields_pure _ ⟨[], trivial, rfl, rfl, by simp, by simp⟩
  | singleton name => exact Task.yields_pure _ ⟨[], trivial, rfl, rfl, by simp, by simp⟩
  | cons_cons segment next rest _ ih =>
      unfold descend
      refine Task.Yields.bind (enterSegment_yields parent segment) fun dir entered => ?_
      obtain ⟨seen, shows, rfl, directory, clear⟩ := entered
      refine (ih next seen.ino).mono fun found walked => ?_
      obtain ⟨further, steps, name, parent, directories, others⟩ := walked
      refine ⟨seen :: further, ⟨shows, steps⟩, ?_, ?_, ?_, ?_⟩
      · rw [name, List.getLast?_cons_cons]
      · rw [parent, lastDir_cons]
      · rw [List.forall_mem_cons]
        exact ⟨directory, directories⟩
      · intro reserved entry
        rw [List.forall_mem_cons]
        exact ⟨clear reserved entry, others reserved entry⟩

/-- What opens did so with what it takes. -/
theorem open_confines (path : String) :
    Task.Yields (fsMachine host weather) (fun _ => False) (fun here => here = world)
      (TargetAccess.open crates root path) fun access =>
        (∃ entered, Confined crates host world root path access entered) ∧
          access.rootDevice = root.device ∧ Openable crates host world root path access.parent := by
  have opens : ∀ (access : TargetAccess) (entered : List Seen),
      Confined crates host world root path access entered → access.rootDevice = root.device →
      crates.validatePlanPath path 4096 = .ok () →
      (world.inodes access.parent).kind ≠ .symlink ∧
        (world.inodes access.parent).device = root.device →
      (∃ entered, Confined crates host world root path access entered) ∧
        access.rootDevice = root.device ∧ Openable crates host world root path access.parent :=
    fun access entered confined near valid safe => ⟨⟨entered, confined⟩, near, valid,
      ⟨access, entered, confined, rfl⟩, safe.1, safe.2⟩
  unfold TargetAccess.open
  refine Task.Yields.bind yields_liftExcept fun _ valid => ?_
  have valid : crates.validatePlanPath path 4096 = .ok () := by
    cases checked : crates.validatePlanPath path 4096 with
    | ok value => rfl
    | error error =>
        rw [checked] at valid
        cases valid
  refine yields_check fun spelled => ?_
  rw [List.contains_iff_mem] at spelled
  refine Task.Yields.bind reservedRootIdentities_yields fun reserved same => ?_
  subst same
  refine Task.Yields.bind (yields_quiet (quiet_cloneHandle _)) fun _ _ => ?_
  refine Task.Yields.bind (descend_yields _ _) fun found walked => ?_
  obtain ⟨parent, name⟩ := found
  obtain ⟨entered, steps, last, rfl, directories, clear⟩ := walked
  refine Task.Yields.bind (dirMetadata_yields _) fun metadata read => ?_
  subst read
  refine yields_check fun safe => ?_
  rw [Bool.or_eq_true, isLinkOrReparse_metadata, decide_eq_true_eq, not_or, not_not] at safe
  refine Task.Yields.bind yields_liftExcept fun name named => ?_
  have last_name : (splitPath path).getLast? = some name := by
    dsimp only at last
    rw [last] at named
    cases found : (splitPath path).getLast? with
    | none =>
        rw [found] at named
        cases named
    | some segment =>
        rw [found] at named
        cases named
        rfl
  refine Task.Yields.bind (attempt_symlinkMetadata_yields _ _) fun result told => ?_
  cases result with
  | ok metadata =>
      obtain ⟨seen, shows, rfl⟩ := told.1 metadata rfl
      refine Task.Yields.bind yields_liftExcept fun passed accepted => ?_
      refine Task.yields_pure _ (opens _ entered
        ⟨spelled, steps, last_name, rfl, directories, clear, ?_⟩ rfl valid safe)
      intro reserved entry other shown
      cases shows.symm.trans shown
      exact rejectReservedIdentity_ok rfl accepted reserved entry
  | error error =>
      refine yields_ite (fun missing => ?_) fun _ => Task.yields_throw _
      refine Task.yields_pure _ (opens _ entered
        ⟨spelled, steps, last_name, rfl, directories, clear, ?_⟩ rfl valid safe)
      intro reserved entry other shown
      cases (told.2 error rfl missing).symm.trans shown

/-! ### Where the walk can be -/

theorem Enters.shown {start : Ino} {segments : List String} {entered : List Seen}
    (steps : Enters host world start segments entered) :
    ∀ seen ∈ entered, ∃ slot, world.look slot = some seen := by
  induction segments generalizing start entered with
  | nil =>
      cases entered with
      | nil => simp
      | cons seen further => exact steps.elim
  | cons segment rest ih =>
      cases entered with
      | nil => exact steps.elim
      | cons seen further =>
          rw [List.forall_mem_cons]
          exact ⟨⟨_, steps.1⟩, ih steps.2⟩

/-- The walk stays below where it began. -/
theorem Enters.below {start : Ino} {segments : List String} {entered : List Seen}
    (steps : Enters host world start segments entered)
    (directories : ∀ seen ∈ entered, seen.inode.kind = .directory) :
    Below world start (lastDir start entered) := by
  induction segments generalizing start entered with
  | nil =>
      cases entered with
      | nil => exact .refl
      | cons seen further => exact steps.elim
  | cons segment rest ih =>
      cases entered with
      | nil => exact steps.elim
      | cons seen further =>
          obtain ⟨shows, later⟩ := steps
          rw [List.forall_mem_cons] at directories
          rw [lastDir_cons]
          exact (ih later directories.2).head ⟨_, seen, shows, directories.1, rfl, rfl⟩

/-- In a tree, whatever lies above the end of a walk was walked through, or lies
above its beginning. -/
theorem Enters.through {start above : Ino} {segments : List String} {entered : List Seen}
    (tree : Tree world root.dir) (steps : Enters host world start segments entered)
    (directories : ∀ seen ∈ entered, seen.inode.kind = .directory)
    (below : Below world above (lastDir start entered)) :
    Below world above start ∨ ∃ seen ∈ entered, seen.ino = above := by
  induction segments generalizing start entered with
  | nil =>
      cases entered with
      | nil => exact .inl below
      | cons seen further => exact steps.elim
  | cons segment rest ih =>
      cases entered with
      | nil => exact steps.elim
      | cons seen further =>
          obtain ⟨shows, later⟩ := steps
          rw [List.forall_mem_cons] at directories
          rw [lastDir_cons] at below
          rcases ih later directories.2 below with higher | ⟨other, among, same⟩
          · rcases Relation.ReflTransGen.cases_tail higher with same | ⟨outer, further, contains⟩
            · exact .inr ⟨seen, List.mem_cons_self, same⟩
            · obtain ⟨slot, other, shown, directory, rfl, same⟩ := contains
              have equal := tree.once slot _ other seen shown shows directory same
              rw [equal] at further
              exact .inl further
          · exact .inr ⟨other, List.mem_cons_of_mem _ among, same⟩

/-- Nothing lies above the root of a tree but the root. -/
theorem Tree.above {above : Ino} (tree : Tree world root.dir)
    (below : Below world above root.dir) : above = root.dir := by
  rcases Relation.ReflTransGen.cases_tail below with same | ⟨outer, _, contains⟩
  · exact same.symm
  · obtain ⟨slot, seen, shows, _, _, same⟩ := contains
    exact absurd same (tree.top slot seen shows)

/-- A walk and a last name lead where the segments resolve to. -/
theorem Enters.resolves {start : Ino} {segments : List String} {entered : List Seen}
    {name : String} (steps : Enters host world start segments.dropLast entered)
    (last : segments.getLast? = some name) :
    resolve host world start segments = some (host.slot (lastDir start entered) name) := by
  induction segments using List.twoStepInduction generalizing start entered with
  | nil => cases last
  | singleton segment =>
      cases last
      cases entered with
      | nil => rfl
      | cons seen further => exact steps.elim
  | cons_cons segment next rest _ ih =>
      cases entered with
      | nil => exact steps.elim
      | cons seen further =>
          obtain ⟨shows, later⟩ := steps
          rw [List.getLast?_cons_cons] at last
          have rest_of := ih next later last
          rw [lastDir_cons, resolve, shows]
          · exact rest_of
          · intro impossible
            cases impossible

namespace Confined

variable {path : String} {access : TargetAccess} {entered : List Seen}

theorem resolves (confined : Confined crates host world root path access entered) :
    resolve host world root.dir (splitPath path) = some (access.slot host) := by
  rw [confined.steps.resolves confined.name, TargetAccess.slot, confined.parent]

theorem inside (confined : Confined crates host world root path access entered) :
    Below world root.dir access.parent := by
  rw [confined.parent]
  exact confined.steps.below fun seen among => (confined.directories seen among).1

theorem elsewhere (confined : Confined crates host world root path access entered) {name : String}
    (among : name ∈ reservedRoots) {reserved : Seen}
    (shows : world.look (host.slot root.dir name) = some reserved) :
    access.slot host ≠ host.slot root.dir name := by
  intro same
  rw [← same] at shows
  exact confined.final reserved ⟨name, among, same ▸ shows⟩ reserved shows rfl

theorem outside (confined : Confined crates host world root path access entered)
    (tree : Tree world root.dir) {reserved : Seen}
    (entry : ReservedEntry host world root reserved) :
    ¬ Below world reserved.ino access.parent := by
  intro below
  rw [confined.parent] at below
  rcases confined.steps.through tree (fun seen among => (confined.directories seen among).1) below
    with higher | ⟨seen, among, same⟩
  · obtain ⟨name, _, shows⟩ := entry
    exact tree.top _ reserved shows (tree.above higher)
  · have listed := entry
    obtain ⟨name, _, shows⟩ := entry
    obtain ⟨slot, shown⟩ := confined.steps.shown seen among
    have one : seen = reserved := by
      rw [← seen_of_look shown, ← seen_of_look shows, same]
    exact confined.clear reserved listed seen among (congrArg Seen.identity one)

end Confined

/-! ### The verdict -/

/-- A target that opens was found by walking real directories of the root's
device, none of them reserved; it is no reserved entry, and in a tree it lies
below none, though below the root. -/
theorem openTarget_confined (crates : Crates T) (host : Host) (weather : Weather) (world : World)
    (root : FsRoot) (path : String) :
    Task.Yields (fsMachine host weather) (fun _ => False) (fun here => here = world)
      (root.openTarget crates path) fun access =>
        (∃ entered, Confined crates host world root path access entered) ∧
        Below world root.dir access.parent ∧
        (∀ name ∈ reservedRoots, ∀ reserved,
          world.look (host.slot root.dir name) = some reserved →
            access.slot host ≠ host.slot root.dir name) ∧
        (Tree world root.dir → ∀ reserved, ReservedEntry host world root reserved →
          ¬ Below world reserved.ino access.parent) := by
  refine (open_confines path).mono fun access opened => ?_
  obtain ⟨⟨entered, confined⟩, _⟩ := opened
  exact ⟨⟨entered, confined⟩, confined.inside, fun name among reserved shows =>
    confined.elsewhere among shows, fun tree reserved entry => confined.outside tree entry⟩

/-! ### A directory with two entries -/

section Mounted

/-- The hooks of the repository are mounted a second time, beside `.git`. -/
def mountedWorld : World :=
  World.tree [(⟨0, ".git"⟩, 1), (⟨1, "hooks"⟩, 2), (⟨0, "alias"⟩, 2)] fun _ =>
    ⟨.directory, 0, [], 0o755⟩

/-- The walk compares the directories it enters with `.git` itself, so that a second
entry of one below leads past the comparison. -/
theorem mounted_entered :
    ∃ access, ((⟨0, 0⟩ : FsRoot).openTarget plainCrates "alias/x").run.Returns
        (fsMachine .plain .calm) mountedWorld (.ok access) mountedWorld ∧
      ∃ reserved, ReservedEntry .plain mountedWorld ⟨0, 0⟩ reserved ∧
        Below mountedWorld reserved.ino access.parent := by
  have ran : ((⟨0, 0⟩ : FsRoot).openTarget plainCrates "alias/x").run.run (fsKernel .plain)
      mountedWorld = (.ok ⟨2, "x", "alias/x", 0, ⟨0, 2⟩⟩, mountedWorld) := by rfl
  have returned : ((⟨0, 0⟩ : FsRoot).openTarget plainCrates "alias/x").run.Returns
      (fsMachine .plain .calm) mountedWorld _ _ := returns_run trivial _ mountedWorld
  rw [ran] at returned
  refine ⟨_, returned, ⟨1, ⟨.directory, 0, [], 0o755⟩, 1⟩, ⟨".git", by decide, by rfl⟩, ?_⟩
  exact .single ⟨⟨1, "hooks"⟩, ⟨2, ⟨.directory, 0, [], 0o755⟩, 2⟩, by rfl, rfl, rfl, rfl⟩

end Mounted

/-! ### Walks that last -/

/-- The segments lead to the entry through directories. -/
def Travels (host : Host) (world : World) : Ino → List String → Slot → Prop
  | _, [], _ => False
  | dir, [name], slot => slot = host.slot dir name
  | dir, segment :: next :: rest, slot =>
      ∃ inner, world.Leads (host.slot dir segment) inner ∧
        Travels host world inner (next :: rest) slot

variable {segments : List String} {slot : Slot} {dir : Ino}

theorem Travels.resolves (travels : Travels host world dir segments slot) :
    resolve host world dir segments = some slot := by
  induction segments using List.twoStepInduction generalizing dir with
  | nil => exact travels.elim
  | singleton name =>
      cases travels
      rfl
  | cons_cons segment next rest _ ih =>
      obtain ⟨inner, leads, further⟩ := travels
      obtain ⟨seen, shows, rfl, _⟩ := leads.look
      rw [resolve, shows]
      · exact ih next further
      · intro impossible
        cases impossible

/-- What leads somewhere goes on doing so, and so does a walk. -/
theorem Travels.mono {later : World}
    (keeps : ∀ slot ino, world.Leads slot ino → later.Leads slot ino)
    (travels : Travels host world dir segments slot) : Travels host later dir segments slot := by
  induction segments using List.twoStepInduction generalizing dir with
  | nil => exact travels
  | singleton name => exact travels
  | cons_cons segment next rest _ ih =>
      obtain ⟨inner, leads, further⟩ := travels
      exact ⟨inner, keeps _ _ leads, ih next further⟩

theorem travels_maintains (host : Host) (weather : Weather) (dir : Ino) (segments : List String)
    (slot : Slot) :
    (fsMachine host weather).Maintains (fun _ => True) fun world =>
      Travels host world dir segments slot := by
  have leads := World.leads_maintains host weather
  constructor
  · intro ρ op start answer finish _ travels stepped
    exact travels.mono fun slot ino here =>
      (leads slot ino).step op start answer finish trivial here
      stepped
  · intro ρ op start left _ travels torn
    exact travels.mono fun slot ino here => (leads slot ino).torn op start left trivial here torn

theorem leads_of_look {seen : Seen} (shows : world.look slot = some seen)
    (directory : seen.inode.kind = .directory) : world.Leads slot seen.ino := by
  obtain ⟨ino, found, rfl⟩ := Option.map_eq_some_iff.mp shows
  exact ⟨found, directory⟩

theorem Enters.travels {entered : List Seen} {name : String}
    (steps : Enters host world dir segments.dropLast entered)
    (last : segments.getLast? = some name)
    (directories : ∀ seen ∈ entered, seen.inode.kind = .directory) :
    Travels host world dir segments (host.slot (lastDir dir entered) name) := by
  induction segments using List.twoStepInduction generalizing dir entered with
  | nil => cases last
  | singleton segment =>
      cases last
      cases entered with
      | nil => rfl
      | cons seen further => exact steps.elim
  | cons_cons segment next rest _ ih =>
      cases entered with
      | nil => exact steps.elim
      | cons seen further =>
          obtain ⟨shows, later⟩ := steps
          rw [List.getLast?_cons_cons] at last
          rw [List.forall_mem_cons] at directories
          rw [lastDir_cons]
          exact ⟨seen.ino, leads_of_look shows directories.1, ih next later last directories.2⟩

theorem Confined.travels {path : String} {access : TargetAccess} {entered : List Seen}
    (confined : Confined crates host world root path access entered) :
    Travels host world root.dir (splitPath path) (access.slot host) := by
  rw [TargetAccess.slot, confined.parent]
  exact confined.steps.travels confined.name fun seen among => (confined.directories seen among).1

end

end Worktree
