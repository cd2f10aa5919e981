import Worktree.Operation.Applying
import Worktree.Operation.Meaning
import Worktree.Operation.Readying
/-
From the plan to the worktree it leaves.

What is foreseen while the lock is held is staged, and what is staged is what a
commit puts in place. The walk to every path stays what it was, for no call
removes a directory.
-/

namespace Worktree

open CrashLogic

section

variable {T : Type}

/-! ### Previews -/

/-- The paths the operation is about. -/
def WorktreeOperation.paths (operation : WorktreeOperation T) : List String :=
  operation.source.toList ++ operation.target.toList

/-- The paths of the plan, each once. -/
def WorktreePlan.paths (plan : WorktreePlan T) : List String :=
  (plan.operations.flatMap WorktreeOperation.paths).dedup

/-- What a preview says of the plan on this worktree. -/
def WorktreePlan.preview (crates : Crates T) (options : WorktreeOptions) (plan : WorktreePlan T)
    (layout : Layout) : WorktreeDryRunReport :=
  { operation := plan.operation
    files := plan.operations.map
      (WorktreeOperation.describe crates options layout (plan.meaning crates options layout))
    touchedPaths := plan.paths.length }

variable {crates : Crates T} {options : WorktreeOptions} {layout other : Layout}
  {plan : WorktreePlan T} {projected : ProjectedPlan T}

theorem WorktreePlan.mem_paths {path : String} : path ∈ plan.paths ↔
    ∃ operation ∈ plan.operations, operation.source = some path ∨ operation.target = some path := by
  rw [WorktreePlan.paths, List.mem_dedup, List.mem_flatMap]
  simp only [WorktreeOperation.paths, List.mem_append, Option.mem_toList]

/-- The projected paths are those of the plan. -/
theorem Foresees.perm (foresees : Foresees crates options layout plan projected) :
    (projected.paths.map ProjectedPath.path).Perm plan.paths := by
  have distinct : (projected.paths.map ProjectedPath.path).Nodup := by
    rw [List.Nodup, List.pairwise_map]
    refine (List.pairwise_map.mp foresees.increasing).imp fun below same => ?_
    rw [same] at below
    exact lt_irrefl _ below
  apply (List.perm_ext_iff_of_nodup distinct (List.nodup_dedup _)).mpr
  intro path
  rw [foresees.named]
  exact WorktreePlan.mem_paths.symm

theorem Foresees.preview (foresees : Foresees crates options layout plan projected) :
    preview projected = plan.preview crates options layout := by
  have count : projected.paths.length = plan.paths.length := by
    rw [← foresees.perm.length_eq, List.length_map]
  unfold Worktree.preview WorktreePlan.preview
  rw [foresees.operation, foresees.operations, count]

/-! ### What a preview depends on -/

/-- The worktrees hold the same under the paths of the plan. -/
def WorktreePlan.Same (plan : WorktreePlan T) (layout other : Layout) : Prop :=
  ∀ path ∈ plan.paths, layout path = other path

theorem WorktreePlan.Same.source {operation : WorktreeOperation T} (same : plan.Same layout other)
    (among : operation ∈ plan.operations) : operation.source.bind layout =
      operation.source.bind other := by
  cases reads : operation.source with
  | none => rfl
  | some path => exact same path (WorktreePlan.mem_paths.mpr ⟨operation, among, .inl reads⟩)

theorem WorktreePlan.Same.outcome {operation : WorktreeOperation T} (same : plan.Same layout other)
    (among : operation ∈ plan.operations) :
    operation.outcome crates options layout = operation.outcome crates options other := by
  have source := same.source among
  have origin : operation.origin layout = operation.origin other := by
    cases operation with
    | modify file => exact source
    | create file => rfl
    | delete file => rfl
    | rename file => exact source
  unfold WorktreeOperation.outcome
  rw [origin]

theorem WorktreePlan.Same.meaning (same : plan.Same layout other) {path : String}
    (listed : path ∈ plan.paths) :
    plan.meaning crates options layout path = plan.meaning crates options other path := by
  refine assign_congr (fun move among => ?_) (same path listed)
  obtain ⟨operation, mentioned, rfl⟩ := List.mem_map.mp among
  exact congrArg (Option.map Prod.fst) (same.outcome mentioned)

/-- A preview depends on what the paths of the plan hold, and on nothing else. -/
theorem WorktreePlan.Same.preview (same : plan.Same layout other) :
    plan.preview crates options layout = plan.preview crates options other := by
  have described : ∀ operation ∈ plan.operations,
      operation.describe crates options layout (plan.meaning crates options layout) =
        operation.describe crates options other (plan.meaning crates options other) := by
    intro operation among
    have target : operation.target.bind (plan.meaning crates options layout) =
        operation.target.bind (plan.meaning crates options other) := by
      cases writes : operation.target with
      | none => rfl
      | some path =>
          exact same.meaning (WorktreePlan.mem_paths.mpr ⟨operation, among, .inr writes⟩)
    unfold WorktreeOperation.describe
    rw [same.source among, target, same.outcome among]
  unfold WorktreePlan.preview
  rw [List.map_congr_left described]

/-! ### The projection and the walks to its paths -/

section

variable {host : Host} {weather : Weather} {world : World} {root : FsRoot}

/-- The job leads to the entry of its transition, through directories. -/
structure Guides (host : Host) (world : World) (root : FsRoot) (item : PathTransition T × Nat)
    (job : SnapshotJob T) : Prop where
  leads : Leads host world root item job
  travels : Travels host world root.dir (splitPath item.1.path) (job.access.slot host)

theorem openJobs_guides (index : Nat) (transitions : List (PathTransition T)) :
    Task.Yields (fsMachine host weather) (fun _ => False) (fun here => here = world)
      (openJobs crates root index transitions) fun jobs =>
        List.Forall₂ (Guides host world root) (transitions.zipIdx index) jobs := by
  induction transitions generalizing index with
  | nil => exact Task.yields_pure _ .nil
  | cons transition rest ih =>
      unfold openJobs
      refine Task.Yields.bind (Task.yields_result _ fun _ => id) fun stableIndex _ => ?_
      refine Task.Yields.bind (Task.yields_adapt (open_confines transition.path))
        fun access opened => ?_
      refine Task.Yields.bind (ih (index + 1)) fun jobs others => ?_
      obtain ⟨⟨entered, confined⟩, _⟩ := opened
      exact Task.yields_pure _ (.cons ⟨⟨rfl, confined.resolves⟩, confined.travels⟩ others)

/-- A projection foresees what the plan means, and its paths are where they are. -/
theorem project_guides (plan : WorktreePlan T) :
    (project crates root options plan).run.Meets (fsMachine host weather).phased (fun _ _ => True)
      (fun result finish => finish = world ∧ ∀ projected, result = .ok projected →
        Foresees crates options (world.layout host root) plan projected ∧
        ∀ path ∈ projected.paths,
          Travels host world root.dir (splitPath path.path) (path.access.slot host)) world := by
  refine (project_opened plan fun transitions => openJobs_guides 0 transitions).mono
    fun result finish told => ⟨told.1, fun projected same => ?_⟩
  obtain ⟨transitions, jobs, snapshots, compiled, guided, snapped, made⟩ := told.2 projected same
  obtain ⟨sources, outputs, assembled⟩ :=
    assembled_of_leads compiled (guided.imp fun _ _ guides => guides.leads) snapped made
  refine ⟨assembled.foresees, fun path listed => ?_⟩
  obtain ⟨_, _, _, _, _, produced, _, _⟩ := assemble_ok made
  obtain ⟨snapshot, among, assembles⟩ :=
    Compiler.forall₂_mem_right (gatherOutputs_ok produced) listed
  obtain ⟨job, among, snaps⟩ := Compiler.forall₂_mem_right snapped among
  obtain ⟨item, _, guides⟩ := Compiler.forall₂_mem_right guided among
  have travels := guides.travels
  rw [← guides.leads.transition, ← snaps.transition, ← assembles.named, ← snaps.access,
    ← assembles.access] at travels
  exact travels

/-! ### Dry runs -/

/-- The transaction is that of the projection made while the lock was held. -/
structure Promised (crates : Crates T) (host : Host) (root : FsRoot) (options : WorktreeOptions)
    (plan : WorktreePlan T) (start : World) (transaction : PreparedWorktreeTransaction)
    (projected : ProjectedPlan T) : Prop where
  foresees : Foresees crates options (start.layout host root) plan projected
  travels : ∀ path ∈ projected.paths,
    Travels host start root.dir (splitPath path.path) (path.access.slot host)
  stands : List.Forall₂ (Stands transaction.transactionId) projected.paths transaction.paths
  operation : transaction.operation = projected.operation
  operations : transaction.operations = projected.operations
  preview : transaction.preview = Worktree.preview projected

variable {dir outer : Ino} {here : World}

/-- What is handed on is what was projected. -/
theorem Vacant.prepareLocked_promises (vacant : Vacant host root dir outer here)
    (bounded : options.limits.maxJournalBytes < u64Max)
    (panics : Nat → Option (Nat × Payload)) (plan : WorktreePlan T) (fingerprint : Sha256Hash)
    (lock : Ino) :
    (prepareLocked crates panics root options plan fingerprint
      ⟨⟨dir, root.device⟩, lock⟩).run.Meets (fsMachine host weather).phased (fun _ _ => True)
      (fun result _ => ∀ transaction, result = .ok transaction →
        ∃ projected, Promised crates host root options plan here transaction projected) here := by
  have failed : ∀ {error : WorktreeError} (transaction : PreparedWorktreeTransaction),
      Except.error error = .ok transaction →
        ∃ projected, Promised crates host root options plan here transaction projected :=
    fun _ impossible => by cases impossible
  unfold prepareLocked
  rw [Task.meets_except_bind]
  have pending : (ensureNoPending ⟨dir, root.device⟩).planning.run.Meets
      (fsMachine host weather).phased (fun _ _ => True) _ here :=
    (Task.meets_phase _ _ _ _ _).mpr
      (meets_of_yields Undo.ensureNoPending_reads.yields fun _ _ => trivial)
  refine pending.mono fun result middle told => ?_
  obtain ⟨rfl, _⟩ := told
  cases result with
  | error error => exact failed
  | ok value =>
      dsimp only
      rw [Task.meets_except_bind]
      refine (project_guides plan).mono fun result found told => ?_
      obtain ⟨rfl, told⟩ := told
      cases result with
      | error error => exact failed
      | ok projected =>
          obtain ⟨foresees, travels⟩ := told projected rfl
          dsimp only
          rw [Task.meets_except_bind]
          have drawing : randomId.planning.run.Meets (fsMachine host weather).phased
              ((fsMachine host weather).phased.Survives
                (LeavesPreparing crates host options dir bounded)) _ found :=
            vacant.meets randomId_yields
          refine (drawing.guard_mono fun _ _ _ => trivial).mono fun result drawn ended => ?_
          obtain ⟨still, _⟩ := ended
          cases result with
          | error error => exact failed
          | ok id =>
              dsimp only
              rw [Task.meets_except_bind]
              have creating : (createWriter ⟨dir, root.device⟩ options).planning.run.Meets
                  (fsMachine host weather).phased ((fsMachine host weather).phased.Survives
                    (LeavesPreparing crates host options dir bounded)) _ drawn :=
                still.createWriter_meets
              refine (creating.guard_mono fun _ _ _ => trivial).mono fun result made ended => ?_
              cases result with
              | error error => exact failed
              | ok writer =>
                  dsimp only
                  rw [Task.meets_except_bind, Task.meets_except_lift]
                  refine ((prepareJournaled_meets panics plan fingerprint _ projected id
                    ended).guard_mono fun _ _ _ => trivial).mono fun result finish ended => ?_
                  obtain ⟨error | handed, after⟩ := result
                  · exact failed
                  · obtain ⟨records, complete, _⟩ := ended
                    intro transaction same
                    cases same
                    exact ⟨projected, foresees, travels,
                      complete.stages.imp fun _ _ stages => stages.stands, complete.operation,
                      complete.operations, rfl⟩

/-! ### What is told of a file -/

/-- What evidence tells of the contents: their hash and the permissions. -/
def Content.digest (crates : Crates T) (content : Content) : Sha256Hash × PortablePermissions :=
  (crates.sha256 content.bytes, content.permissions)

def SlotEvidence.digest : SlotEvidence → Option (Sha256Hash × PortablePermissions)
  | .absent => none
  | .present evidence => some (evidence.sha256, evidence.permissions)

/-- What the worktree tells of the path. -/
def World.digest (crates : Crates T) (host : Host) (root : FsRoot) (world : World) (path : String) :
    Option (Sha256Hash × PortablePermissions) :=
  (world.layout host root path).map (Content.digest crates)

theorem layout_of_travels {path : String} {slot : Slot}
    (travels : Travels host world root.dir (splitPath path) slot) :
    world.layout host root path = (world.look slot).map fun seen =>
      ⟨seen.inode.bytes, .fromPermissions seen.inode.mode⟩ := by
  unfold World.layout
  rw [travels.resolves, Option.bind_some]

theorem digest_of_travels {path : String} {slot : Slot}
    (travels : Travels host world root.dir (splitPath path) slot) :
    world.digest crates host root path = (world.look slot).map fun seen =>
      (crates.sha256 seen.inode.bytes, .fromPermissions seen.inode.mode) := by
  unfold World.digest
  rw [layout_of_travels travels, Option.map_map]
  rfl

section

variable {staged : StagedPath} {path : String}
  (travels : Travels host world root.dir (splitPath path) (staged.access.slot host))
include travels

theorem StagedPath.Changed.digest (changed : staged.Changed crates host world) :
    world.digest crates host root path = staged.after.digest := by
  rw [digest_of_travels travels]
  unfold StagedPath.Changed at changed
  cases after : staged.after with
  | absent =>
      rw [after] at changed
      rw [show world.look (staged.access.slot host) = none from changed]
      rfl
  | present evidence =>
      rw [after] at changed
      obtain ⟨seen, shows, _, _, rfl⟩ := changed
      rw [shows]
      rfl

theorem StagedPath.Displays.digest {evidence : SlotEvidence}
    (displays : staged.Displays crates host world evidence) :
    world.digest crates host root path = evidence.digest := by
  rw [digest_of_travels travels]
  unfold StagedPath.Displays at displays
  cases evidence with
  | absent =>
      rw [show world.look (staged.access.slot host) = none from displays]
      rfl
  | present evidence =>
      obtain ⟨seen, shows, _, rfl⟩ := displays
      rw [shows]
      rfl

theorem StagedPath.Restored.digest (restored : staged.Restored crates host world) :
    world.digest crates host root path = staged.before.digest := by
  unfold StagedPath.Restored at restored
  cases before : staged.before with
  | absent =>
      rw [before] at restored
      rw [digest_of_travels travels, restored]
      rfl
  | present evidence =>
      rw [before] at restored
      obtain ⟨backup, _, displays⟩ := restored
      rw [displays.digest travels]
      rfl

end

/-- A path that is not harmed tells what it told. -/
theorem Unharmed.digest {staged : StagedPath} {path : String} {finish : World}
    (unharmed : Unharmed crates host staged world finish)
    (first : Travels host world root.dir (splitPath path) (staged.access.slot host))
    (last : Travels host finish root.dir (splitPath path) (staged.access.slot host)) :
    finish.digest crates host root path = world.digest crates host root path := by
  rcases unharmed with same | ⟨before, shows | restored⟩
  · rw [digest_of_travels first, digest_of_travels last, same]
  · rw [before.digest first, shows.digest last]
  · rw [before.digest first, restored.digest last]

/-- What is staged for a path tells what the plan leaves there. -/
theorem Stands.digest {id : String} {item : ProjectedPath T} {staged : StagedPath}
    {held : Option Content} (stands : Stands id item staged)
    (holds : item.after.Holds crates options held) :
    staged.after.digest = held.map (Content.digest crates) := by
  have put := stands.after
  cases after : item.after with
  | absent =>
      rw [after] at put holds
      rw [show staged.after = .absent from put, show held = none from holds]
      rfl
  | present output =>
      rw [after] at put holds
      obtain ⟨artifact, same, hash, permissions⟩ := put
      obtain ⟨content, rfl, yields⟩ := holds
      rw [same, SlotEvidence.digest, hash, permissions, yields.sha256, yields.permissions]
      rfl

/-! ### From the plan to the commit -/

variable {start middle finish : World} {transaction : PreparedWorktreeTransaction}

/-- What a transaction that was handed on is: the projection of the worktree under the lock, and
ready. -/
theorem prepareOperationPlan_promises (bounded : options.limits.maxJournalBytes < u64Max)
    (controls : FsRoot.Controls host root dir start)
    (absent : start.look (host.slot dir operationJournal) = none)
    {panics : Nat → Option (Nat × Payload)}
    (returned : (prepareOperationPlan crates panics root options plan).run.Returns
      (fsMachine host weather).phased start (.ok transaction) middle) :
    ∃ locked here, (acquire root).planning.run.Returns (fsMachine host weather).phased start
        (.ok locked) here ∧
      (∃ projected, Promised crates host root options plan here transaction projected ∧
        ∀ path ∈ projected.paths,
          Travels host middle root.dir (splitPath path.path) (path.access.slot host)) ∧
      ∃ base, Handed crates host root options dir plan transaction base middle := by
  obtain ⟨outer, first, second⟩ := controls
  have vacant : Vacant host root dir outer start := ⟨absent, first, second⟩
  unfold prepareOperationPlan at returned
  rw [Task.returns_except_bind] at returned
  obtain ⟨error, _, impossible⟩ | ⟨fingerprint, checked, validated, returned⟩ := returned
  · cases impossible
  obtain ⟨_, rfl⟩ := validated
  rw [Task.returns_except_bind] at returned
  obtain ⟨error, _, impossible⟩ | ⟨locked, here, acquired, returned⟩ := returned
  · cases impossible
  have acquiring : (acquire root).planning.run.Meets (fsMachine host weather).phased
      ((fsMachine host weather).phased.Survives (LeavesPreparing crates host options dir bounded))
      _ checked :=
    vacant.meets (acquire_yields (fun _ vacant => vacant.first) (fun _ vacant => vacant.second)
      lock_apart fun _ => trivial)
  obtain ⟨vacant, same⟩ := acquiring.returns acquired
  obtain ⟨control, lock⟩ := locked
  obtain rfl := same _ rfl
  refine ⟨_, here, acquired, ?_⟩
  rw [Task.returns_except_bind] at returned
  obtain ⟨error, _, impossible⟩ | ⟨result, after, prepared, returned⟩ := returned
  · cases impossible
  rw [ExceptT.run_lift, ← bind_pure_comp, Task.returns_bind] at prepared
  obtain ⟨ended, last, prepared, same, rfl⟩ := prepared
  cases same
  cases result with
  | error error =>
      obtain ⟨answer, later, _, impossible, _⟩ := returned
      cases impossible
  | ok found =>
      obtain ⟨same, rfl⟩ := returned
      cases same
      obtain ⟨projected, promised⟩ := (vacant.prepareLocked_promises bounded panics plan fingerprint
        lock).returns prepared transaction rfl
      have preparing : (prepareLocked crates panics root options plan fingerprint
          ⟨⟨dir, root.device⟩, lock⟩).run.Meets (fsMachine host weather).phased
          ((fsMachine host weather).phased.Survives
            (LeavesPreparing crates host options dir bounded))
          (PreparationEnds crates host root options dir plan bounded) here :=
        vacant.prepareLocked_meets panics plan fingerprint lock
      refine ⟨⟨projected, promised, fun path listed => ?_⟩, preparing.returns prepared⟩
      have keeps := (travels_maintains host weather root.dir (splitPath path.path)
        (path.access.slot host)).phased
      exact (Task.maintains_meets keeps _ (promised.travels path listed)).returns prepared

/-- The staged path of a path of the plan: where it is, and what the plan leaves there. -/
theorem Promised.path {projected : ProjectedPlan T}
    (promised : Promised crates host root options plan start transaction projected)
    {path : String} (listed : path ∈ plan.paths) :
    ∃ item ∈ projected.paths, ∃ staged ∈ transaction.paths,
      Stands transaction.transactionId item staged ∧ item.path = path ∧
      item.after.Holds crates options
        (plan.meaning crates options (start.layout host root) path) := by
  obtain ⟨item, among, rfl⟩ := List.mem_map.mp (promised.foresees.perm.mem_iff.mpr listed)
  have stood : List.Forall₂ (flip (Stands transaction.transactionId)) transaction.paths
      projected.paths := promised.stands.flip
  obtain ⟨staged, there, stands⟩ := Compiler.forall₂_mem_right stood among
  exact ⟨item, among, staged, there, stands, rfl, promised.foresees.after item among⟩

/-- A plan that is prepared under the lock is what its preview says there; a commit that
ends well leaves under every path of the plan what the plan means on the worktree under
the lock, and one that fails without asking for a recovery leaves what was there. -/
theorem apply_fulfils (bounded : options.limits.maxJournalBytes < u64Max)
    (controls : FsRoot.Controls host root dir start)
    (absent : start.look (host.slot dir operationJournal) = none)
    {panics : Nat → Option (Nat × Payload)}
    (returned : (prepareOperationPlan crates panics root options plan).run.Returns
      (fsMachine host weather).phased start (.ok transaction) middle) :
    ∃ locked here, (acquire root).planning.run.Returns (fsMachine host weather).phased start
        (.ok locked) here ∧
      transaction.preview = plan.preview crates options (here.layout host root) ∧
      (Separate host (host.slot dir operationJournal) transaction.paths →
        ∀ result finish, (transaction.commit crates).run.Returns (fsMachine host weather) middle
          result finish → match result with
          | .ok report =>
              report = ⟨transaction.transactionId, plan.operation, transaction.preview.files,
                transaction.preview.touchedPaths⟩ ∧
              ∀ path ∈ plan.paths, finish.digest crates host root path =
                (plan.meaning crates options (here.layout host root) path).map
                  (Content.digest crates)
          | .error error => error.recoveryRequired = false → ∀ path ∈ plan.paths,
              finish.digest crates host root path = middle.digest crates host root path) := by
  obtain ⟨locked, here, acquired, ⟨projected, promised, travels⟩, base, handed⟩ :=
    prepareOperationPlan_promises bounded controls absent returned
  refine ⟨locked, here, acquired, promised.preview.trans promised.foresees.preview, ?_⟩
  intro separate result finish ran
  have place : host.slot transaction.control.dir operationJournal =
      host.slot dir operationJournal := by
    rw [handed.dir]
  have alone : Alone (host.slot dir operationJournal) transaction.journal.file middle := by
    obtain ⟨seen, shows, reserved, ino, _⟩ := handed.ready.journal.stores
    rw [← place]
    exact ⟨seen, shows, ino, reserved.single⟩
  have ended := ((commit_meets separate place alone).returns ran).2
  have walks : ∀ item ∈ projected.paths,
      Travels host finish root.dir (splitPath item.path) (item.access.slot host) := by
    intro item among
    have keeps := travels_maintains host weather root.dir (splitPath item.path)
      (item.access.slot host)
    exact (Task.maintains_meets keeps _ (travels item among)).returns ran
  cases result with
  | ok report =>
      obtain ⟨rfl, _, applied⟩ := ended
      refine ⟨?_, fun path listed => ?_⟩
      · unfold Commit.applyReport
        rw [promised.operation, promised.foresees.operation, promised.operations,
          promised.preview, ← promised.stands.length_eq]
        rfl
      · obtain ⟨item, among, staged, there, stands, rfl, holds⟩ := promised.path listed
        have last := walks item among
        rw [← stands.access] at last
        exact ((applied.changed staged there).digest last).trans (stands.digest holds)
  | error error =>
      intro plain path listed
      obtain ⟨item, among, staged, there, stands, rfl, _⟩ := promised.path listed
      have first := travels item among
      have last := walks item among
      rw [← stands.access] at first last
      exact ((ended plain).unharmed staged there).digest first last

end

end

/-! ### One file created -/

section Creation

@[irreducible] private def createPrepare : Planning PreparedWorktreeTransaction :=
  prepareOperationPlan plainCrates (fun _ => none) ⟨0, 0⟩ plainOptions createPlan

/-- The preparation of the plan that creates `a`. -/
def createPrepared : Except WorktreeError PreparedWorktreeTransaction × World :=
  createPrepare.run.phasedRun (fsKernel .plain) bareWorld

/-- The commit of what it hands on. -/
def createApplied : Except WorktreeError WorktreeApplyReport × World :=
  match createPrepared.1 with
  | .ok transaction => (transaction.commit plainCrates).run.run (fsKernel .plain) createPrepared.2
  | .error error => (.error error, createPrepared.2)

/-- The file is there as the plan says. -/
theorem apply_fulfils_creation :
    createApplied.1.isOk = true ∧ createApplied.2.digest plainCrates .plain ⟨0, 0⟩ "a" =
      some (plainCrates.sha256 [], .fromPermissions 0o644) := by
  have computed : createApplied.1.isOk = true ∧
      createPrepare.run.manned (fsKernel .plain) bareWorld = true ∧
      createPrepared.1.toOption.map (fun transaction =>
        transaction.paths.map fun path => (path.names, path.slots .plain)) = some
          [([artifactName "00000000000000000000000000000000" 0 "stage"],
            [⟨0, "a"⟩, ⟨0, artifactName "00000000000000000000000000000000" 0 "stage"⟩])] := by
    decide +kernel
  obtain ⟨applied, manned, shape⟩ := computed
  have returned : createPrepare.run.Returns (fsMachine .plain .calm).phased bareWorld
      createPrepared.1 createPrepared.2 :=
    Task.returns_phasedRun (step_exec trivial) createPrepare.run bareWorld manned
  unfold createApplied at applied ⊢
  cases prepared : createPrepared.1 with
  | error error =>
      rw [prepared] at applied
      cases applied
  | ok transaction =>
      rw [prepared] at returned shape applied
      dsimp only at applied ⊢
      obtain ⟨path, only, both⟩ := List.map_eq_singleton_iff.mp (Option.some_inj.mp shape)
      obtain ⟨names, slots⟩ := Prod.mk.inj both
      have separate : Separate .plain (Host.plain.slot 2 operationJournal) transaction.paths := by
        rw [only]
        refine ⟨?_, ?_, ?_, List.pairwise_singleton _ _⟩
        · intro other among name named
          rw [List.mem_singleton.mp among, names] at named
          rw [List.mem_singleton.mp named]
          decide +kernel
        · intro other among
          rw [List.mem_singleton.mp among, slots]
          decide +kernel
        · intro other among
          rw [List.mem_singleton.mp among, slots]
          decide +kernel
      unfold createPrepare at returned
      obtain ⟨locked, here, _, _, fulfils⟩ :=
        apply_fulfils (by decide) bare_controls rfl returned
      have ended := fulfils separate _ _ (returns_run trivial _ createPrepared.2)
      refine ⟨applied, ?_⟩
      cases report : ((transaction.commit plainCrates).run.run (fsKernel .plain)
          createPrepared.2).1 with
      | error error =>
          rw [report] at applied
          cases applied
      | ok found =>
          rw [report] at ended
          exact ended.2 "a" (by decide)

end Creation

end Worktree
