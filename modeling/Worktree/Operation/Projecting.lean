import Worktree.Operation.Projection
import Worktree.Filesystem.Calm
/-
What a projection reads, and that it only reads.

Every path of a projection stands for one transition of the plan, in the order
of the transitions, with what was found under it.
-/

namespace Worktree

open CrashLogic

section

variable {T : Type} {crates : Crates T} {host : Host} {weather : Weather}
  {options : WorktreeOptions} {root : FsRoot} {world : World}

/-! ### Pools of workers -/

section

variable {ι ε ρ : Type} {allowed : {ρ : Type} → FsOp ρ → Prop} {known : World → Prop}

/-- A result that is a value is one its job ends with. -/
def Delivers (good : ι → ρ → Prop) (item : ι) (result : Except (ScheduleError ε) ρ) : Prop :=
  ∀ value, result = .ok value → good item value

theorem runJob_upholds {operation : ExceptT ε (Task FsOp) ρ} {good : ρ → Prop}
    (yields : Task.Yields (fsMachine host weather) allowed known operation good) :
    (runJob operation).Upholds (fsMachine host weather) allowed known
      fun result => ∀ value, result = .ok value → good value := by
  unfold runJob
  rw [Task.upholds_map]
  refine Task.Upholds.mono yields fun result kept value same => ?_
  cases result with
  | ok found =>
      cases same
      exact kept _ rfl
  | error error => cases same

theorem forall₂_map_range {items : List ι} {results : Nat → ρ} {rel : ι → ρ → Prop}
    (each : ∀ index item, items[index]? = some item → rel item (results index)) :
    List.Forall₂ rel items ((List.range items.length).map results) := by
  rw [List.forall₂_iff_get]
  refine ⟨by simp, fun index bound _ => ?_⟩
  simp only [List.get_eq_getElem, List.getElem_map, List.getElem_range]
  exact each index _ (List.getElem?_eq_getElem bound)

/-- A pool keeps what each of its jobs keeps, and delivers in input order. -/
theorem mapOrdered_meets {items : List ι} {operation : ι → ExceptT ε (Task FsOp) ρ}
    {good : ι → ρ → Prop} (requestedWorkers : Nat)
    (maintains : (fsMachine host weather).Maintains allowed known)
    (yields : ∀ item ∈ items,
      Task.Yields (fsMachine host weather) allowed known (operation item) (good item))
    {guard : {κ : Type} → Phase FsOp κ → World → Prop} (knows : known world)
    (guarded : ∀ {κ : Type} (op : Phase FsOp κ), (∀ left,
      (fsMachine host weather).phased.torn op world left → known left) → guard op world) :
    (mapOrdered items requestedWorkers operation).Meets (fsMachine host weather).phased guard
      (fun results finish => known finish ∧ List.Forall₂ (Delivers good) items results) world := by
  unfold mapOrdered
  split
  · next nobody =>
      have empty : items = [] := by
        unfold boundedWorkerCount at nobody
        split at nobody
        · next none_given => exact List.length_eq_zero_iff.mp none_given
        · next some_given =>
            simp only [hardMaxWorkers] at nobody
            omega
      subst empty
      exact ⟨knows, .nil⟩
  · next some_worker =>
      have nonempty : 0 < items.length := by
        by_contra empty
        apply some_worker
        unfold boundedWorkerCount
        rw [if_pos (by omega)]
      rw [Task.meets_bind]
      refine (Contract.meets_spawn_upholds (fun index result => ∀ item, items[index]? = some item →
          ∀ value, result = .ok value → good item value)
        _ (Nat.pos_of_ne_zero some_worker) maintains
        (fun index bound => ?_) guard world knows
        (fun torn => guarded _ fun left came => torn left came nonempty) nonempty).mono ?_
      · rw [List.getElem?_eq_getElem bound]
        refine (runJob_upholds (yields _ (List.getElem_mem bound))).mono
          fun result kept item same => ?_
        cases same
        exact kept
      rintro _ finish ⟨kept, stored, rfl, delivered⟩
      refine ⟨kept, ?_⟩
      rw [List.map_map]
      refine forall₂_map_range fun index item found value same => ?_
      have bound := (List.getElem?_eq_some_iff.mp found).1
      cases outcome : stored index with
      | none =>
          simp only [Function.comp_apply, outcome] at same
          cases same
      | some result =>
          simp only [Function.comp_apply, outcome, Option.getD_some] at same
          exact delivered index bound result outcome item found value same

end

/-! ### Snapshots -/

/-- What a snapshot says about the world it was taken in. -/
def Observes (crates : Crates T) (host : Host) (options : WorktreeOptions) (world : World)
    (access : TargetAccess) : ProjectedInput → Prop
  | .absent => world.look (access.slot host) = none
  | .present source evidence => ∃ seen, world.look (access.slot host) = some seen ∧
      seen.Plain access.rootDevice ∧ Fits options.limits.maxSourceBytesPerFile seen ∧
      source = seen.inode.bytes ∧ evidence = seen.evidence crates.sha256

/-- The input is the one the plan asks for. -/
def Fulfils : PlannedInput → ProjectedInput → Prop
  | .absent, .absent => True
  | .present _ expectedSha256 _, .present _ evidence => evidence.sha256 = expectedSha256
  | _, _ => False

structure Snaps (crates : Crates T) (host : Host) (options : WorktreeOptions) (world : World)
    (job : SnapshotJob T) (result : SnapshotResult T) : Prop where
  index : result.stableIndex = job.stableIndex
  transition : result.transition = job.transition
  access : result.access = job.access
  observes : Observes crates host options world result.access result.before
  fulfils : Fulfils result.transition.before result.before

theorem snapshotInput_ok {transition : PathTransition T} {observed : SlotSnapshot}
    {access : TargetAccess} {before : ProjectedInput}
    (seen : match observed with
      | .absent => world.look (access.slot host) = none
      | .present snapshot => ∃ seen, world.look (access.slot host) = some seen ∧
          seen.Plain access.rootDevice ∧ Fits options.limits.maxSourceBytesPerFile seen ∧
          snapshot = ⟨seen.inode.bytes, seen.identity, .fromPermissions seen.inode.mode⟩)
    (input : snapshotInput crates transition observed = .ok before) :
    Observes crates host options world access before ∧ Fulfils transition.before before := by
  unfold snapshotInput at input
  cases planned : transition.before with
  | absent =>
      cases observed with
      | absent =>
          simp only [planned] at input
          cases input
          exact ⟨seen, trivial⟩
      | present snapshot =>
          simp only [planned] at input
          cases input
  | present operationIndex expectedSha256 role =>
      cases observed with
      | absent =>
          simp only [planned] at input
          cases input
      | present snapshot =>
          obtain ⟨there, shows, plain, fits, rfl⟩ := seen
          simp only [planned] at input
          split at input
          · cases input
          · next same =>
              split at input
              · cases input
              · cases input
                exact ⟨⟨there, shows, plain, fits, rfl, rfl⟩, of_not_not same⟩

theorem snapshot_yields (job : SnapshotJob T) :
    Task.Yields (fsMachine host weather) (fun _ => False) (fun here => here = world)
      (snapshot crates options job) (Snaps crates host options world job) := by
  have sees : ∀ here : World, here = world →
      here.look (job.access.slot host) = world.look (job.access.slot host) := by
    rintro here rfl
    rfl
  unfold snapshot
  have observed : Task.Yields (fsMachine host weather) (fun _ => False) (fun here => here = world)
      (job.access.snapshotSlot options.limits.maxSourceBytesPerFile) fun observed =>
        match observed with
        | .absent => world.look (job.access.slot host) = none
        | .present snapshot => ∃ seen, world.look (job.access.slot host) = some seen ∧
            seen.Plain job.access.rootDevice ∧ Fits options.limits.maxSourceBytesPerFile seen ∧
            snapshot = ⟨seen.inode.bytes, seen.identity, .fromPermissions seen.inode.mode⟩ := by
    refine (TargetAccess.snapshotSlot_learns _ sees).upholds.mono
      fun result answered value same => ?_
    subst same
    exact answered
  refine Task.Yields.bind (Task.yields_adapt observed) fun snapshot seen => ?_
  refine Task.Yields.bind (Task.yields_result _ fun _ => id) fun before input => ?_
  obtain ⟨observes, fulfils⟩ := snapshotInput_ok seen input
  exact Task.yields_pure _ ⟨rfl, rfl, rfl, observes, fulfils⟩

theorem collectSnapshots_ok {index : Nat}
    {results : List (Except (ScheduleError WorktreeError) (SnapshotResult T))}
    {snapshots : List (SnapshotResult T)}
    (collected : collectSnapshots index results = .ok snapshots) :
    results = snapshots.map .ok := by
  induction results generalizing index snapshots with
  | nil =>
      cases collected
      rfl
  | cons result rest ih =>
      rcases result with (error | message | _) | value
      · cases collected
      · cases collected
      · cases collected
      · simp only [collectSnapshots] at collected
        cases tail : collectSnapshots (index + 1) rest with
        | error error =>
            rw [tail] at collected
            cases collected
        | ok others =>
            rw [tail] at collected
            cases collected
            rw [ih tail]
            rfl

/-- What was delivered and collected, job by job. -/
theorem Snaps.collected {jobs : List (SnapshotJob T)}
    {results : List (Except (ScheduleError WorktreeError) (SnapshotResult T))}
    {snapshots : List (SnapshotResult T)}
    (delivered : List.Forall₂ (Delivers (Snaps crates host options world)) jobs results)
    (collected : collectSnapshots 0 results = .ok snapshots) :
    List.Forall₂ (Snaps crates host options world) jobs snapshots := by
  rw [collectSnapshots_ok collected, List.forall₂_map_right_iff] at delivered
  exact delivered.imp fun _ _ delivers => delivers _ rfl

/-! ### The projected paths -/

/-- A snapshot becomes a path with the same place and the output the plan names. -/
structure Assembles (crates : Crates T) (options : WorktreeOptions) (sources : Sources)
    (snapshot : SnapshotResult T) (path : ProjectedPath T) : Prop where
  index : path.stableIndex = snapshot.stableIndex
  named : path.path = snapshot.transition.path
  access : path.access = snapshot.access
  before : path.before = snapshot.before
  after : projectAfter crates options snapshot.transition.after snapshot.before sources =
    .ok path.after

theorem gatherOutputs_ok {sources : Sources} {outputs outputs' : Outputs} {bytes bytes' : Nat}
    {snapshots : List (SnapshotResult T)} {paths : List (ProjectedPath T)}
    (gathered : gatherOutputs crates options sources outputs bytes snapshots =
      .ok (outputs', bytes', paths)) :
    List.Forall₂ (Assembles crates options sources) snapshots paths := by
  induction snapshots generalizing outputs bytes paths with
  | nil =>
      cases gathered
      exact .nil
  | cons snapshot rest ih =>
      simp only [gatherOutputs] at gathered
      obtain ⟨after, projected, gathered⟩ := bind_ok_iff.mp gathered
      have tail : ∀ (outputs : Outputs) (bytes : Nat),
          (gatherOutputs crates options sources outputs bytes rest >>= fun found =>
            (pure (found.1, found.2.1,
              { stableIndex := snapshot.stableIndex
                path := snapshot.transition.path
                access := snapshot.access
                before := snapshot.before
                after } :: found.2.2) :
              Except WorktreeError (Outputs × Nat × List (ProjectedPath T)))) =
            .ok (outputs', bytes', paths) →
          List.Forall₂ (Assembles crates options sources) (snapshot :: rest) paths := by
        intro outputs bytes gathered
        obtain ⟨⟨outputs, bytes, others⟩, inner, same⟩ := bind_ok_iff.mp gathered
        cases same
        exact .cons ⟨rfl, rfl, rfl, rfl, projected⟩ (ih inner)
      cases after with
      | absent => exact tail _ _ gathered
      | present present =>
          obtain ⟨total, _, gathered⟩ := bind_ok_iff.mp gathered
          split at gathered
          · cases gathered
          · exact tail _ _ gathered

/-- A job opens the path of its transition. -/
structure Opens (crates : Crates T) (root : FsRoot) (item : PathTransition T × Nat)
    (job : SnapshotJob T) : Prop where
  index : job.stableIndex = item.2
  transition : job.transition = item.1
  path : job.access.path = item.1.path
  device : job.access.rootDevice = root.device
  valid : crates.validatePlanPath item.1.path 4096 = .ok ()

theorem toU32_eq {value found : Nat} (fits : toU32 value = some found) : found = value := by
  unfold toU32 at fits
  split at fits
  · cases fits
    rfl
  · cases fits

theorem openJobs_reads (index : Nat) (transitions : List (PathTransition T)) :
    Reads host weather (openJobs crates root index transitions) fun jobs =>
      List.Forall₂ (Opens crates root) (transitions.zipIdx index) jobs := by
  induction transitions generalizing index with
  | nil => exact Task.yields_pure _ .nil
  | cons transition rest ih =>
      unfold openJobs
      refine Task.Yields.bind (Task.yields_result _ fun _ => id) fun stableIndex fits => ?_
      refine Task.Yields.bind (Task.yields_adapt (openTarget_reads _ _)) fun access opened => ?_
      refine Task.Yields.bind (ih (index + 1)) fun jobs others => ?_
      have same : stableIndex = index := by
        cases found : toU32 index with
        | none =>
            rw [found] at fits
            cases fits
        | some value =>
            rw [found] at fits
            cases fits
            exact toU32_eq found
      subst same
      rw [List.zipIdx_cons]
      exact Task.yields_pure _ (.cons ⟨rfl, rfl, opened.1, opened.2.1, opened.2.2⟩ others)

/-! ### The whole projection -/

/-- The projection of a plan: jobs for its transitions, snapshots of the world as
it is, and what the code assembles from them. -/
structure Projects (crates : Crates T) (host : Host) (options : WorktreeOptions) (root : FsRoot)
    (world : World) (plan : WorktreePlan T) (projected : ProjectedPlan T) : Prop where
  assembled : ∃ transitions jobs snapshots, compilePlan crates plan = .ok transitions ∧
    List.Forall₂ (Opens crates root) transitions.zipIdx jobs ∧
    List.Forall₂ (Snaps crates host options world) jobs snapshots ∧
    assemble crates plan snapshots options = .ok projected

/-- The projection with jobs of which more is known, wherever its calls may come. -/
theorem project_guarded (plan : WorktreePlan T)
    {opens : PathTransition T × Nat → SnapshotJob T → Prop}
    (opening : ∀ transitions, Task.Yields (fsMachine host weather) (fun _ => False)
      (fun here => here = world) (openJobs crates root 0 transitions)
      fun jobs => List.Forall₂ opens (transitions.zipIdx 0) jobs)
    {guard : {κ : Type} → Phase FsOp κ → World → Prop}
    (guarded : ∀ {κ : Type} (op : Phase FsOp κ), (∀ left,
      (fsMachine host weather).phased.torn op world left → left = world) → guard op world) :
    (project crates root options plan).run.Meets (fsMachine host weather).phased guard
      (fun result finish => finish = world ∧ ∀ projected, result = .ok projected →
        ∃ transitions jobs snapshots, compilePlan crates plan = .ok transitions ∧
          List.Forall₂ opens (transitions.zipIdx 0) jobs ∧
          List.Forall₂ (Snaps crates host options world) jobs snapshots ∧
          assemble crates plan snapshots options = .ok projected) world := by
  have admits : (fsMachine host weather).Admits (fun op here => guard (.single op) here) world :=
    fun op quiet => guarded _ fun left torn => absurd torn ((quiet world).1 left)
  unfold project
  rw [Task.meets_except_bind]
  cases compiled : compilePlan crates plan with
  | error error => exact ⟨rfl, fun _ impossible => by cases impossible⟩
  | ok transitions =>
      dsimp only [ExceptT.run_mk]
      rw [Task.meets_pure]
      dsimp only
      rw [Task.meets_except_bind]
      refine Task.Meets.mono ((Task.meets_phase _ _ _ _ _).mpr (meets_of_yields (opening transitions)
        admits)) fun result here told => ?_
      obtain ⟨rfl, told⟩ := told
      cases result with
      | error error => exact ⟨rfl, fun _ impossible => by cases impossible⟩
      | ok jobs =>
          dsimp only
          rw [Task.meets_except_bind, Task.meets_except_lift]
          have still : (fsMachine host weather).Maintains (fun _ => False)
              (fun after => after = here) := ⟨fun _ _ _ _ => False.elim, fun _ _ _ => False.elim⟩
          refine (mapOrdered_meets _ still (fun job _ => snapshot_yields job) rfl
            guarded).mono fun results after delivered => ?_
          obtain ⟨rfl, delivered⟩ := delivered
          dsimp only
          rw [Task.meets_except_bind]
          cases collected : collectSnapshots 0 results with
          | error error => exact ⟨rfl, fun _ impossible => by cases impossible⟩
          | ok snapshots =>
              refine ⟨rfl, fun projected assembled => ?_⟩
              exact ⟨transitions, jobs, snapshots, rfl, told jobs rfl,
                Snaps.collected delivered collected, assembled⟩

theorem project_opened (plan : WorktreePlan T)
    {opens : PathTransition T × Nat → SnapshotJob T → Prop}
    (opening : ∀ transitions, Task.Yields (fsMachine host weather) (fun _ => False)
      (fun here => here = world) (openJobs crates root 0 transitions)
      fun jobs => List.Forall₂ opens (transitions.zipIdx 0) jobs) :
    (project crates root options plan).run.Meets (fsMachine host weather).phased (fun _ _ => True)
      (fun result finish => finish = world ∧ ∀ projected, result = .ok projected →
        ∃ transitions jobs snapshots, compilePlan crates plan = .ok transitions ∧
          List.Forall₂ opens (transitions.zipIdx 0) jobs ∧
          List.Forall₂ (Snaps crates host options world) jobs snapshots ∧
          assemble crates plan snapshots options = .ok projected) world :=
  project_guarded plan opening fun _ _ => trivial

theorem project_meets (plan : WorktreePlan T) :
    (project crates root options plan).run.Meets (fsMachine host weather).phased (fun _ _ => True)
      (fun result finish => finish = world ∧ ∀ projected, result = .ok projected →
        Projects crates host options root world plan projected) world := by
  refine (project_opened plan fun transitions =>
    (openJobs_reads 0 transitions).yields).mono fun result finish told => ?_
  exact ⟨told.1, fun projected same => ⟨told.2 projected same⟩⟩

/-! ### What is assembled -/

theorem assemble_ok {plan : WorktreePlan T} {snapshots : List (SnapshotResult T)}
    {projected : ProjectedPlan T}
    (assembled : assemble crates plan snapshots options = .ok projected) :
    ∃ sources sourceBytes outputs outputBytes,
      gatherSources options {} 0 snapshots = .ok (sources, sourceBytes) ∧
      gatherOutputs crates options sources {} 0 snapshots =
        .ok (outputs, outputBytes, projected.paths) ∧
      changes sources outputs 0 plan.operations = .ok projected.operations ∧
      projected.operation = plan.operation := by
  unfold assemble at assembled
  obtain ⟨⟨sources, sourceBytes⟩, gathered, assembled⟩ := bind_ok_iff.mp assembled
  obtain ⟨⟨outputs, outputBytes, paths⟩, produced, assembled⟩ := bind_ok_iff.mp assembled
  obtain ⟨artifactBytes, _, assembled⟩ := bind_ok_iff.mp assembled
  split at assembled
  · cases assembled
  · obtain ⟨operations, listed, same⟩ := bind_ok_iff.mp assembled
    cases same
    exact ⟨sources, sourceBytes, outputs, outputBytes, gathered, produced, listed, rfl⟩

theorem changes_length {sources : Sources} {outputs : Outputs} {index : Nat}
    {operations : List (WorktreeOperation T)} {listed : List OperationChange}
    (changed : changes sources outputs index operations = .ok listed) :
    listed.length = operations.length := by
  induction operations generalizing index listed with
  | nil =>
      cases changed
      rfl
  | cons operation rest ih =>
      obtain ⟨first, _, changed⟩ := bind_ok_iff.mp changed
      obtain ⟨others, among, same⟩ := bind_ok_iff.mp changed
      cases same
      rw [List.length_cons, List.length_cons, ih among]

theorem forall₂_compose {α β γ : Type} {first : α → β → Prop} {second : β → γ → Prop}
    {both : α → γ → Prop}
    {left : List α} {middle : List β} {right : List γ} (one : List.Forall₂ first left middle)
    (other : List.Forall₂ second middle right)
    (compose : ∀ item value result, first item value → second value result → both item result) :
    List.Forall₂ both left right := by
  induction one generalizing right with
  | nil =>
      cases other
      exact .nil
  | cons head _ ih =>
      cases other with
      | cons next rest => exact .cons (compose _ _ _ head next) (ih rest)

theorem getElem?_of_forall₂ {α β : Type} {rel : α → β → Prop} {left : List α} {right : List β}
    (related : List.Forall₂ rel left right) {index : Nat} {value : β}
    (found : right[index]? = some value) :
    ∃ other, left[index]? = some other ∧ rel other value := by
  induction related generalizing index with
  | nil => cases found
  | cons head _ ih =>
      cases index with
      | zero =>
          cases found
          exact ⟨_, rfl, head⟩
      | succ index => exact ih found

namespace Projects

variable {plan : WorktreePlan T} {projected : ProjectedPlan T}

/-- Paths are numbered as they are listed. -/
theorem numbered (projects : Projects crates host options root world plan projected)
    {index : Nat} {path : ProjectedPath T} (listed : projected.paths[index]? = some path) :
    path.stableIndex = index := by
  obtain ⟨transitions, jobs, snapshots, _, opened, snapped, assembled⟩ := projects.assembled
  obtain ⟨sources, _, outputs, _, _, gathered, _, _⟩ := assemble_ok assembled
  obtain ⟨snapshot, among, assembles⟩ := getElem?_of_forall₂ (gatherOutputs_ok gathered) listed
  obtain ⟨job, opening, snaps⟩ := getElem?_of_forall₂ snapped among
  obtain ⟨item, zipped, opens⟩ := getElem?_of_forall₂ opened opening
  rw [List.getElem?_zipIdx] at zipped
  obtain ⟨transition, _, same⟩ := Option.map_eq_some_iff.mp zipped
  rw [assembles.index, snaps.index, opens.index, ← same]
  exact Nat.zero_add index

theorem paths_length (projects : Projects crates host options root world plan projected)
    {transitions : List (PathTransition T)} (compiled : compilePlan crates plan = .ok transitions) :
    projected.paths.length = transitions.length := by
  obtain ⟨found, jobs, snapshots, compiles, opened, snapped, assembled⟩ := projects.assembled
  obtain ⟨sources, _, outputs, _, _, gathered, _, _⟩ := assemble_ok assembled
  rw [compiled] at compiles
  cases compiles
  rw [← (gatherOutputs_ok gathered).length_eq, ← snapped.length_eq, ← opened.length_eq,
    List.length_zipIdx]

theorem operations_length (projects : Projects crates host options root world plan projected) :
    projected.operations.length = plan.operations.length := by
  obtain ⟨_, _, _, _, _, _, assembled⟩ := projects.assembled
  obtain ⟨_, _, _, _, _, _, listed, _⟩ := assemble_ok assembled
  exact changes_length listed

end Projects

end

end Worktree
