import Mathlib.Data.List.Perm.Basic
import Worktree.Crates.Plain
import Worktree.Filesystem.Confinement
import Worktree.Operation.Leaving
import Worktree.Operation.Staging
import Worktree.Transaction.Flagging
/-
Whether two paths of an accepted plan can name one file.

A file with one link has one directory entry, so that two observed files have one
identity exactly when their paths lead to one entry. An edit plan compares the
identities of its files before it starts; an operation plan compares nothing.
-/

namespace Worktree

open CrashLogic

/-! ### Lists side by side -/

section

variable {α β γ δ : Type}

theorem forall₂_filterMap {rel : α → β → Prop} {kept : γ → δ → Prop} {choose : α → Option γ}
    {select : β → Option δ} {left : List α} {right : List β} (related : List.Forall₂ rel left right)
    (agree : ∀ item value, rel item value → Option.Rel kept (choose item) (select value)) :
    List.Forall₂ kept (left.filterMap choose) (right.filterMap select) := by
  induction related with
  | nil => exact .nil
  | cons head _ ih =>
      rename_i item value _ _ _
      have chosen := agree item value head
      rw [List.filterMap_cons, List.filterMap_cons]
      cases first : choose item with
      | none =>
          rw [first] at chosen
          cases second : select value with
          | none => exact ih
          | some other =>
              rw [second] at chosen
              cases chosen
      | some one =>
          rw [first] at chosen
          cases second : select value with
          | none =>
              rw [second] at chosen
              cases chosen
          | some other =>
              rw [second] at chosen
              cases chosen with
              | some keeps => exact .cons keeps ih

/-- Lists side by side repeat themselves at the same places. -/
theorem nodup_map_iff_of_forall₂ {rel : α → β → Prop} {key : α → γ} {mark : β → δ}
    {left : List α} {right : List β} (related : List.Forall₂ rel left right)
    (agree : ∀ item value item' value', rel item value → rel item' value' →
      (key item = key item' ↔ mark value = mark value')) :
    (left.map key).Nodup ↔ (right.map mark).Nodup := by
  induction related with
  | nil => exact ⟨fun _ => .nil, fun _ => .nil⟩
  | cons head rest ih =>
      rename_i item value items values
      have among : key item ∈ items.map key ↔ mark value ∈ values.map mark := by
        clear ih
        induction rest with
        | nil => exact ⟨nofun, nofun⟩
        | cons next _ ih =>
            rw [List.map_cons, List.map_cons, List.mem_cons, List.mem_cons, ih,
              agree _ _ _ _ head next]
      rw [List.map_cons, List.map_cons, List.nodup_cons, List.nodup_cons, among, ih]

end

/-! ### Entries and identities -/

/-- No two of the paths lead to one directory entry. -/
def Apart (host : Host) (world : World) (root : FsRoot) (paths : List String) : Prop :=
  (paths.map fun path => resolve host world root.dir (splitPath path)).Nodup

/-- The path leads to the only entry of a file with this identity. -/
def Located (host : Host) (world : World) (root : FsRoot) (path : String)
    (identity : FileIdentity) : Prop :=
  ∃ slot seen, resolve host world root.dir (splitPath path) = some slot ∧
    world.look slot = some seen ∧ seen.links = 1 ∧ identity = seen.identity

section

variable {T : Type} {host : Host} {weather : Weather} {world : World} {root : FsRoot}

theorem Located.same_iff {first second : String} {one other : FileIdentity}
    (left : Located host world root first one) (right : Located host world root second other) :
    resolve host world root.dir (splitPath first) =
      resolve host world root.dir (splitPath second) ↔ one = other := by
  obtain ⟨slot, seen, leads, shows, single, rfl⟩ := left
  obtain ⟨slot', there, leads', also, single', rfl⟩ := right
  rw [leads, leads']
  constructor
  · intro same
    cases same
    cases shows.symm.trans also
    rfl
  · intro same
    have inode : there.ino = seen.ino := (congrArg FileIdentity.inode same).symm
    rw [World.only_name shows single also inode]

/-- Located files are told apart by their identities. -/
theorem apart_iff {paths : List String} {identities : List FileIdentity}
    (located : List.Forall₂ (Located host world root) paths identities) :
    Apart host world root paths ↔ identities.Nodup := by
  have both := nodup_map_iff_of_forall₂ located fun _ _ _ _ left right => left.same_iff right
  rw [List.map_id'] at both
  exact both

/-! ### Operation plans -/

/-- The paths that must be present before. -/
def consumed (transitions : List (PathTransition T)) : List String :=
  transitions.filterMap fun transition => match transition.before with
    | .absent => none
    | .present .. => some transition.path

/-- The identities of the inputs that were present before. -/
def PreparedWorktreeTransaction.identities (transaction : PreparedWorktreeTransaction) :
    List FileIdentity :=
  transaction.paths.filterMap fun path => match path.before with
    | .absent => none
    | .present evidence => some evidence.identity

/-- The consumed path of the transition is that of the projected input. -/
def Finds (host : Host) (world : World) (root : FsRoot) (transition : PathTransition T)
    (path : ProjectedPath T) : Prop :=
  match transition.before, path.before with
  | .absent, .absent => True
  | .present .., .present _ evidence => Located host world root transition.path evidence.identity
  | _, _ => False

variable {crates : Crates T} {options : WorktreeOptions}

/-- The job leads to the entry of its transition. -/
structure Leads (host : Host) (world : World) (root : FsRoot) (item : PathTransition T × Nat)
    (job : SnapshotJob T) : Prop where
  transition : job.transition = item.1
  resolves : resolve host world root.dir (splitPath item.1.path) = some (job.access.slot host)

theorem openJobs_leads (index : Nat) (transitions : List (PathTransition T)) :
    Task.Yields (fsMachine host weather) (fun _ => False) (fun here => here = world)
      (openJobs crates root index transitions) fun jobs =>
        List.Forall₂ (Leads host world root) (transitions.zipIdx index) jobs := by
  induction transitions generalizing index with
  | nil => exact Task.yields_pure _ .nil
  | cons transition rest ih =>
      unfold openJobs
      refine Task.Yields.bind (Task.yields_result _ fun _ => id) fun stableIndex _ => ?_
      refine Task.Yields.bind (Task.yields_adapt (open_confines transition.path))
        fun access opened => ?_
      refine Task.Yields.bind (ih (index + 1)) fun jobs others => ?_
      obtain ⟨⟨entered, confined⟩, _⟩ := opened
      exact Task.yields_pure _ (.cons ⟨rfl, confined.resolves⟩ others)

theorem Leads.finds {sources : Sources} {item : PathTransition T × Nat} {job : SnapshotJob T}
    {snapshot : SnapshotResult T} {path : ProjectedPath T} (leads : Leads host world root item job)
    (snaps : Snaps crates host options world job snapshot)
    (assembles : Assembles crates options sources snapshot path) :
    Finds host world root item.1 path := by
  have fulfils := snaps.fulfils
  have observes := snaps.observes
  rw [snaps.transition, leads.transition, ← assembles.before] at fulfils
  rw [snaps.access, ← assembles.before] at observes
  unfold Finds
  cases planned : item.1.before with
  | absent =>
      rw [planned] at fulfils
      cases found : path.before with
      | absent => trivial
      | present source evidence =>
          rw [found] at fulfils
          exact fulfils
  | present operationIndex expectedSha256 role =>
      rw [planned] at fulfils
      cases found : path.before with
      | absent =>
          rw [found] at fulfils
          exact fulfils
      | present source evidence =>
          rw [found] at observes
          obtain ⟨seen, shows, plain, _, _, rfl⟩ := observes
          exact ⟨_, seen, leads.resolves, shows, plain.links, rfl⟩

/-- A projection finds every consumed path of its plan. -/
theorem project_finds (plan : WorktreePlan T) :
    (project crates root options plan).run.Meets (fsMachine host weather).phased (fun _ _ => True)
      (fun result finish => finish = world ∧ ∀ projected, result = .ok projected →
        ∃ transitions, compilePlan crates plan = .ok transitions ∧
          List.Forall₂ (Finds host world root) transitions projected.paths) world := by
  refine (project_opened plan fun transitions => openJobs_leads 0 transitions).mono
    fun result finish told => ?_
  refine ⟨told.1, fun projected same => ?_⟩
  obtain ⟨transitions, jobs, snapshots, compiled, led, snapped, assembled⟩ := told.2 projected same
  obtain ⟨sources, _, _, _, _, gathered, _, _⟩ := assemble_ok assembled
  refine ⟨transitions, compiled, ?_⟩
  have paired : List.Forall₂ (fun (transition : PathTransition T) (item : PathTransition T × Nat) =>
      transition = item.1) transitions (transitions.zipIdx 0) := by
    rw [← List.forall₂_map_right_iff, List.zipIdx_map_fst]
    exact List.forall₂_same.mpr fun _ _ => rfl
  have snapshotted : List.Forall₂ (fun job path => ∃ snapshot,
      Snaps crates host options world job snapshot ∧
        Assembles crates options sources snapshot path) jobs projected.paths :=
    forall₂_compose snapped (gatherOutputs_ok gathered)
      fun _ snapshot _ snaps assembles => ⟨snapshot, snaps, assembles⟩
  have found := forall₂_compose led snapshotted fun item job path leads both => by
    obtain ⟨snapshot, snaps, assembles⟩ := both
    exact leads.finds snaps assembles
  exact forall₂_compose paired found fun transition item path same finds => same ▸ finds

/-- What is found is what is staged. -/
theorem Finds.staged {id : String} {transition : PathTransition T} {path : ProjectedPath T}
    {staged : StagedPath} (finds : Finds host world root transition path)
    (stands : Stands id path staged) :
    Option.Rel (Located host world root)
      (match transition.before with
        | .absent => none
        | .present .. => some transition.path)
      (match staged.before with
        | .absent => none
        | .present evidence => some evidence.identity) := by
  rw [stands.before]
  unfold Finds at finds
  cases planned : transition.before with
  | absent =>
      rw [planned] at finds
      cases found : path.before with
      | absent => exact .none
      | present source evidence =>
          rw [found] at finds
          exact finds.elim
  | present operationIndex expectedSha256 role =>
      rw [planned] at finds
      cases found : path.before with
      | absent =>
          rw [found] at finds
          exact finds.elim
      | present source evidence =>
          rw [found] at finds
          exact .some finds

/-- The identities of a prepared transaction are those of the entries its plan
consumes. -/
theorem prepareLocked_located (panics : Nat → Option (Nat × Payload)) (plan : WorktreePlan T)
    (fingerprint : Sha256Hash) (locked : TransactionLock) (start : World) :
    (prepareLocked crates panics root options plan fingerprint locked).run.Meets
      (fsMachine host weather).phased (fun _ _ => True) (fun result _ => ∀ transaction,
        result = .ok transaction → ∃ transitions, compilePlan crates plan = .ok transitions ∧
          List.Forall₂ (Located host start root) (consumed transitions) transaction.identities)
      start := by
  refine (prepareLocked_collects panics plan fingerprint locked start (project_finds plan)
    fun projected id writer here _ _ => (stageAll_stands panics projected id writer here).mono
      fun _ _ told value same => (told value same).2.2).mono
    fun result finish told transaction same => ?_
  obtain ⟨projected, ⟨transitions, compiled, found⟩, stands, _⟩ := told transaction same
  refine ⟨transitions, compiled, ?_⟩
  have both := forall₂_compose found stands fun _ _ _ finds stands => Finds.staged finds stands
  exact forall₂_filterMap both fun _ _ relates => relates

end

/-! ### Edit plans -/

namespace Edit

section

variable {T : Type} {crates : EditCrates T} {host : Host} {weather : Weather} {world : World}
  {root : FsRoot} {options : WorktreeOptions}

/-- What passes the preflight is located, each file by an identity of its own. -/
theorem preflight_located (identities : List (FileIdentity × Nat)) (total : Nat)
    (files : List (FileEdit T × Nat)) :
    Task.Yields (fsMachine host weather) (fun _ => False) (fun here => here = world)
      (preflight crates root options identities total files) fun planned =>
        List.Forall₂ (Located host world root) (files.map fun item => item.1.path)
          (planned.map PlannedTarget.identity) ∧
        (planned.map PlannedTarget.identity).Nodup ∧
        ∀ identity ∈ planned.map PlannedTarget.identity, identities.lookup identity = none := by
  induction files generalizing identities total with
  | nil =>
      unfold preflight
      exact Task.yields_pure _ ⟨.nil, .nil, fun _ impossible => by cases impossible⟩
  | cons item rest ih =>
      obtain ⟨file, index⟩ := item
      unfold preflight
      refine Task.Yields.bind (Task.yields_adapt (open_confines file.path)) fun access opened => ?_
      obtain ⟨⟨entered, confined⟩, _⟩ := opened
      have probed : Task.Yields (fsMachine host weather) (fun _ => False)
          (fun here => here = world) access.probe fun probe => ∃ seen,
            world.look (access.slot host) = some seen ∧ seen.Plain access.rootDevice ∧
              probe = ⟨seen.inode.bytes.length, seen.identity,
                .fromPermissions seen.inode.mode⟩ := by
        have sees : ∀ here : World, here = world →
            here.look (access.slot host) = world.look (access.slot host) := by
          rintro here rfl
          rfl
        refine (TargetAccess.probe_learns sees).upholds.mono fun result answered value same => ?_
        subst same
        exact answered
      refine Task.Yields.bind (Task.yields_adapt probed) fun probe found => ?_
      obtain ⟨seen, shows, plain, rfl⟩ := found
      refine yields_check fun _ => ?_
      refine Task.Yields.bind liftWorktree_any.yields fun total _ => ?_
      refine yields_check fun _ => ?_
      split
      · exact Task.yields_throw _
      · next fresh =>
          refine Task.Yields.bind (ih _ _) fun planned told => ?_
          obtain ⟨located, distinct, others⟩ := told
          refine Task.yields_pure _ ⟨?_, ?_, ?_⟩
          · exact .cons ⟨_, seen, confined.resolves, shows, plain.links, rfl⟩ located
          · rw [List.map_cons, List.nodup_cons]
            refine ⟨fun among => ?_, distinct⟩
            have hidden := others _ among
            rw [List.lookup_cons_self] at hidden
            cases hidden
          · intro identity among
            rcases List.mem_cons.mp among with rfl | later
            · exact fresh
            · have hidden := others identity later
              rw [List.lookup_cons] at hidden
              split at hidden
              · cases hidden
              · exact hidden

theorem ordered_perm (plan : EditPlan T) :
    ((ordered crates plan).map fun item => item.1.path).Perm
      (plan.files.map fun file => file.edit.path) := by
  have sorted := (List.mergeSort_perm (plan.files.map PlanFile.edit).zipIdx fun left right =>
    crates.portablePathKey left.1.path < crates.portablePathKey right.1.path ||
      (crates.portablePathKey left.1.path = crates.portablePathKey right.1.path &&
        left.1.path ≤ right.1.path)).map fun item => item.1.path
  refine sorted.trans (List.Perm.of_eq ?_)
  have names := congrArg (List.map FileEdit.path)
    (List.zipIdx_map_fst 0 (plan.files.map PlanFile.edit))
  rw [List.map_map, List.map_map] at names
  exact names

/-- A projected edit plan names no file twice, and projecting changes nothing. -/
theorem projectPlan_apart (plan : EditPlan T) :
    (projectPlan crates root options plan).run.Meets (fsMachine host weather).phased
      (fun _ _ => True) (fun result finish => finish = world ∧ ∀ projected,
        result = .ok projected → (projected.map ProjectedTarget.identity).Nodup ∧
          Apart host world root (plan.files.map fun file => file.edit.path)) world := by
  unfold projectPlan
  rw [Task.meets_except_bind]
  cases valid : validatePlan crates plan options with
  | error error => exact ⟨rfl, nofun⟩
  | ok value =>
      dsimp only [ExceptT.run_mk]
      rw [Task.meets_pure]
      dsimp only
      rw [Task.meets_except_bind]
      refine Task.Meets.mono ((Task.meets_phase _ _ _ _ _).mpr
        (meets_of_yields (preflight_located [] 0 _) fun _ _ => trivial)) fun result here told => ?_
      obtain ⟨rfl, told⟩ := told
      cases result with
      | error error => exact ⟨rfl, nofun⟩
      | ok planned =>
          obtain ⟨located, distinct, _⟩ := told planned rfl
          dsimp only
          rw [Task.meets_except_bind, Task.meets_except_lift]
          have still : (fsMachine host weather).Maintains (fun _ => False)
              (fun after => after = here) := ⟨fun _ _ _ _ => False.elim, fun _ _ _ => False.elim⟩
          refine (mapOrdered_meets _ still (fun target _ => (projectTarget_reads target).yields) rfl
            (fun _ _ => trivial)).mono fun results after delivered => ?_
          obtain ⟨rfl, delivered⟩ := delivered
          dsimp only
          rw [Task.meets_except_bind]
          cases collected : collectResults 0 results with
          | error error => exact ⟨rfl, nofun⟩
          | ok targets =>
              dsimp only [ExceptT.run_mk]
              rw [Task.meets_pure]
              dsimp only
              rw [Task.meets_except_bind]
              cases bounded : validateAggregateOutput targets options with
              | error error => exact ⟨rfl, nofun⟩
              | ok value =>
                  refine ⟨rfl, fun projected same => ?_⟩
                  cases same
                  rw [collectResults_ok collected, List.forall₂_map_right_iff] at delivered
                  have kept : planned.map PlannedTarget.identity =
                      targets.map ProjectedTarget.identity := by
                    rw [← List.forall₂_eq_eq_eq, List.forall₂_map_left_iff,
                      List.forall₂_map_right_iff]
                    exact delivered.imp fun _ _ delivers => (delivers _ rfl).symm
                  refine ⟨kept ▸ distinct, ?_⟩
                  have apart := (apart_iff located).mpr distinct
                  exact ((ordered_perm plan).map _).nodup_iff.mp apart

theorem stageOne_gains (job : StageJob T) :
    Gains host weather (stageOne crates options job) fun staged =>
      staged.identity = job.file.identity := by
  unfold stageOne
  refine Task.Yields.bind (gains_any _) fun result _ => ?_
  cases result with
  | ok value => exact Task.yields_pure _ rfl
  | error error =>
      refine Task.Yields.bind (gains_any _) fun _ _ => ?_
      exact gains_raise _ error

/-- The files that were staged are among those of the jobs, in their order. -/
theorem sortStaged_sublist (index : Nat) {jobs : List (StageJob T)}
    {results : List (Except (ScheduleError WorktreeError) StagedFile)}
    (delivered : List.Forall₂ (Delivers fun (job : StageJob T) (staged : StagedFile) =>
      staged.identity = job.file.identity) jobs results) :
    ((sortStaged index results).1.map StagedFile.identity).Sublist
      (jobs.map fun job => job.file.identity) := by
  induction delivered generalizing index with
  | nil => exact .slnil
  | cons delivers _ ih =>
      rename_i job result _ _ _
      rcases result with (error | message | _) | staged
      · exact (ih (index + 1)).cons _
      · exact (ih (index + 1)).cons _
      · exact (ih (index + 1)).cons _
      · rw [List.map_cons, ← delivers staged rfl]
        exact (ih (index + 1)).cons_cons _

theorem anything_session {α : Type} (program : Journaled α) (writer : JournalWriter)
    (start : World) :
    (program.planning.run.run writer).Meets (fsMachine host weather).phased (fun _ _ => True)
      (fun _ _ => True) start :=
  Task.Ends.meets (Task.ends_any fun _ => trivial) start

/-- Staging keeps the identities of the files, and adds none. -/
theorem stageAll_sublist (files : List (ProjectedTarget T)) (transactionId : String)
    (writer : JournalWriter) (start : World) :
    ((stageAll crates files transactionId options).run.run writer).Meets
      (fsMachine host weather).phased (fun _ _ => True) (fun result _ => ∀ staged,
        result.1 = .ok staged → (staged.map StagedFile.identity).Sublist
          (files.map ProjectedTarget.identity)) start := by
  unfold stageAll
  rw [Task.meets_session_bind]
  have declared : ((declareFiles crates transactionId 0 files).planning.run.run writer).Meets
      (fsMachine host weather).phased (fun _ _ => True)
      (fun result _ => ∀ jobs, result.1 = .ok jobs → jobs.map StageJob.file = files) start :=
    (Task.meets_phase _ _ _ _ start).mpr
      (Task.Ends.meets (declareFiles_gives transactionId 0 files writer) start)
  refine declared.mono fun result middle listed => ?_
  obtain ⟨error | jobs, writer⟩ := result
  · exact nofun
  have same := listed jobs rfl
  dsimp only
  rw [Task.meets_session_bind, Task.meets_session_task]
  have maintains : (fsMachine host weather).Maintains (fun _ => True) (fun _ => True) :=
    ⟨fun _ _ _ _ _ _ _ => trivial, fun _ _ _ _ _ _ => trivial⟩
  refine (mapOrdered_meets _ maintains (fun job _ => stageOne_gains job) trivial
    (fun _ _ => trivial)).mono fun results middle told => ?_
  have kept := sortStaged_sublist 0 told.2
  refine (Task.meets_phase _ _ _ _ _).mpr ?_
  unfold beside collectStaged
  rw [Task.meets_session_lift]
  cases sorted : sortStaged 0 results with
  | mk staged failed =>
      cases failed with
      | none =>
          intro found came
          cases came
          rw [sorted] at kept
          rw [← same, List.map_map]
          exact kept
      | some error =>
          have raised : (cleanupArtifacts (jobs.map fun job =>
              ⟨job.file.access, job.stageName, job.backupName⟩) >>= fun _ =>
                (throw error : Action (List StagedFile))).run.Ends fun result =>
              ∀ value, result = .ok value → False := by
            rw [ExceptT.run_bind, Task.ends_bind]
            refine Task.ends_any fun result => ?_
            cases result with
            | ok removed => exact nofun
            | error failed => exact nofun
          refine (Task.Ends.meets raised middle).mono fun result finish none value same => ?_
          exact (none value same).elim

theorem prepareJournaled_sublist (plan : EditPlan T) (control : ControlDir)
    (projected : List (ProjectedTarget T)) (transactionId : String) (writer : JournalWriter)
    (start : World) :
    ((prepareJournaled crates plan control projected transactionId options).run.run writer).Meets
      (fsMachine host weather).phased (fun _ _ => True) (fun result _ => ∀ staged,
        result.1 = .ok staged → (staged.map StagedFile.identity).Sublist
          (projected.map ProjectedTarget.identity)) start := by
  unfold prepareJournaled
  rw [Task.meets_session_bind]
  refine (anything_session _ writer start).mono fun result middle _ => ?_
  obtain ⟨error | _, writer⟩ := result
  · exact nofun
  dsimp only
  rw [Task.meets_session_bind]
  have staged : ((stageOrAbort crates control projected transactionId options).run.run
      writer).Meets (fsMachine host weather).phased (fun _ _ => True) (fun result _ => ∀ staged,
        result.1 = .ok staged → (staged.map StagedFile.identity).Sublist
          (projected.map ProjectedTarget.identity)) middle := by
    unfold stageOrAbort
    rw [Task.meets_session_bind, ExceptT.run_lift, StateT.run_map, Task.meets_map]
    refine (stageAll_sublist projected transactionId writer middle).mono fun result here kept => ?_
    obtain ⟨error | value, writer⟩ := result
    · change Task.Meets _ _ (StateT.run (ExceptT.run (if error.recoveryRequired = true then _
        else _)) writer) _ here
      split
      · exact nofun
      · rw [Task.meets_session_bind]
        refine (anything_session _ writer here).mono fun result finish _ => ?_
        obtain ⟨failed | _, writer⟩ := result
        · exact nofun
        · exact nofun
    · intro found same
      cases same
      exact kept value rfl
  refine staged.mono fun result middle kept => ?_
  obtain ⟨error | files, writer⟩ := result
  · exact nofun
  have told := kept files rfl
  dsimp only
  rw [Task.meets_session_bind]
  refine (anything_session _ writer middle).mono fun result middle _ => ?_
  obtain ⟨error | _, writer⟩ := result
  · exact nofun
  · intro found same
    cases same
    exact told

/-- A prepared edit plan has no two files with one identity; a plan of which two
files lead to one entry fails before anything changes. -/
theorem prepareLocked_apart (plan : EditPlan T) (locked : TransactionLock) (start : World) :
    (prepareLocked crates root options plan locked).run.Meets (fsMachine host weather).phased
      (fun _ _ => True) (fun result finish =>
        (∀ transaction, result = .ok transaction →
          (transaction.files.map StagedFile.identity).Nodup) ∧
        (¬ Apart host start root (plan.files.map fun file => file.edit.path) →
          result.isOk = false ∧ finish = start)) start := by
  unfold prepareLocked
  rw [Task.meets_except_bind]
  have pending : Reads host weather (findPending locked.control) fun _ => True := by
    unfold findPending
    refine Task.Yields.bind (Task.yields_adapt (ControlDir.openNamedJournal_reads _)) fun _ _ => ?_
    refine yields_ite (fun _ => Task.yields_pure _ trivial) fun _ => ?_
    refine Task.Yields.bind (Task.yields_adapt ControlDir.openOperationJournal_reads) fun _ _ => ?_
    refine yields_ite (fun _ => Task.yields_pure _ trivial) fun _ => ?_
    refine Task.Yields.bind (Task.yields_adapt (ControlDir.openNamedJournal_reads _)) fun _ _ => ?_
    exact Task.yields_pure _ trivial
  refine Task.Meets.mono ((Task.meets_phase _ _ _ _ _).mpr (pending.meets fun _ _ => trivial))
    fun result here told => ?_
  obtain ⟨rfl, _⟩ := told
  cases result with
  | error error => exact ⟨nofun, fun _ => ⟨rfl, rfl⟩⟩
  | ok pending =>
      cases pending with
      | true => exact ⟨nofun, fun _ => ⟨rfl, rfl⟩⟩
      | false =>
          change Task.Meets _ _ (ExceptT.run (projectPlan crates root options plan >>= _)) _ here
          rw [Task.meets_except_bind]
          refine (projectPlan_apart plan).mono fun result same told => ?_
          obtain ⟨rfl, told⟩ := told
          cases result with
          | error error => exact ⟨nofun, fun _ => ⟨rfl, rfl⟩⟩
          | ok projected =>
              obtain ⟨distinct, apart⟩ := told projected rfl
              refine Task.Meets.mono ?_ fun result finish good =>
                ⟨good, fun together => absurd apart together⟩
              dsimp only
              rw [Task.meets_except_bind]
              refine (anything_planning _ same).mono fun result drawn _ => ?_
              cases result with
              | error error => exact nofun
              | ok id =>
                  dsimp only
                  rw [Task.meets_except_bind]
                  refine (anything_planning _ drawn).mono fun result made _ => ?_
                  cases result with
                  | error error => exact nofun
                  | ok writer =>
                      dsimp only
                      rw [Task.meets_except_bind, Task.meets_except_lift]
                      refine (prepareJournaled_sublist plan locked.control projected id writer
                        made).mono fun result finish kept => ?_
                      obtain ⟨error | files, journal⟩ := result
                      · exact nofun
                      · intro transaction came
                        cases came
                        exact (kept files rfl).nodup distinct

end

end Edit

/-! ### The verdict -/

/-- Once the lock is held, an edit plan is prepared with files of distinct
identities only, and fails before anything changes where two of its files lead to
one entry. An operation plan is prepared with distinct identities exactly when no
two paths it consumes lead to one entry, and otherwise prepared all the same. -/
theorem prepares_apart_iff {T : Type} (crates : EditCrates T) (host : Host) (weather : Weather)
    (root : FsRoot) (options : WorktreeOptions) (locked : TransactionLock) (start : World) :
    (∀ plan : EditPlan T, (Edit.prepareLocked crates root options plan locked).run.Meets
      (fsMachine host weather).phased (fun _ _ => True) (fun result finish =>
        (∀ transaction, result = .ok transaction →
          (transaction.files.map Edit.StagedFile.identity).Nodup) ∧
        (¬ Apart host start root (plan.files.map fun file => file.edit.path) →
          result.isOk = false ∧ finish = start)) start) ∧
    ∀ (panics : Nat → Option (Nat × Payload)) (plan : WorktreePlan T) (fingerprint : Sha256Hash),
      (prepareLocked crates.toCrates panics root options plan fingerprint locked).run.Meets
        (fsMachine host weather).phased (fun _ _ => True) (fun result _ =>
          ∀ transaction, result = .ok transaction →
            ∃ transitions, compilePlan crates.toCrates plan = .ok transitions ∧
              (transaction.identities.Nodup ↔
                Apart host start root (consumed transitions))) start := by
  constructor
  · intro plan
    exact Edit.prepareLocked_apart plan locked start
  · intro panics plan fingerprint
    refine (prepareLocked_located panics plan fingerprint locked start).mono
      fun result finish told transaction same => ?_
    obtain ⟨transitions, compiled, located⟩ := told transaction same
    exact ⟨transitions, compiled, (apart_iff located).symm⟩

/-! ### A file by its long name and by its short one -/

section Shortened

/-- The file system reads the short name as the long one. -/
def shortHost : Host where
  fold := fun _ name => if name = "LONGNA~1.TXT" then "longname.txt" else name
  foldOwn := by
    intro _ name own
    by_cases short : name = "LONGNA~1.TXT"
    · subst short
      exact absurd own (by decide)
    · exact if_neg short
  foldArtifact := by
    intro _ name starts
    by_cases short : name = "LONGNA~1.TXT"
    · subst short
      exact absurd starts (by decide)
    · rw [if_neg short]
      exact starts
  freshMode := 0o644

def namedWorld : World :=
  World.tree [(⟨0, ".weavatrix"⟩, 1), (⟨1, "worktree"⟩, 2), (⟨2, "lock"⟩, 3),
    (⟨0, "longname.txt"⟩, 4)] fun ino =>
    if ino ≤ 2 then ⟨.directory, 0, [], 0o755⟩ else ⟨.file, 0, [], 0o644⟩

/-- The file is deleted twice, under both names. -/
def twicePlan : WorktreePlan Unit :=
  ⟨"delete twice", [.delete ⟨"longname.txt", (Sha256.digest []).display⟩,
    .delete ⟨"LONGNA~1.TXT", (Sha256.digest []).display⟩]⟩

@[irreducible] private def twicePrepare : Planning PreparedWorktreeTransaction :=
  prepareOperationPlan plainCrates (fun _ => none) ⟨0, 0⟩ plainOptions twicePlan

private def twiceEnd : Except WorktreeError PreparedWorktreeTransaction × World :=
  twicePrepare.run.phasedRun (fsKernel shortHost) namedWorld

/-- An operation plan with two names of one file is prepared. -/
theorem shortened_prepared :
    ∃ transaction finish, (prepareOperationPlan plainCrates (fun _ => none) ⟨0, 0⟩ plainOptions
        twicePlan).run.Returns (fsMachine shortHost .calm).phased namedWorld (.ok transaction)
        finish ∧ ¬ transaction.identities.Nodup := by
  have same : twicePrepare = prepareOperationPlan plainCrates (fun _ => none) ⟨0, 0⟩ plainOptions
      twicePlan := by
    unfold twicePrepare
    rfl
  have some_worker : twicePrepare.run.manned (fsKernel shortHost) namedWorld = true := by
    decide +kernel
  have returned : twicePrepare.run.Returns (fsMachine shortHost .calm).phased namedWorld
      twiceEnd.1 twiceEnd.2 :=
    Task.returns_phasedRun (step_exec trivial) _ namedWorld some_worker
  have ended : twiceEnd.1.isOk = true ∧ ∀ identities,
      twiceEnd.1.toOption.map PreparedWorktreeTransaction.identities = some identities →
        ¬ identities.Nodup := by
    have found : twiceEnd.1.toOption.map PreparedWorktreeTransaction.identities =
        some [⟨0, 4⟩, ⟨0, 4⟩] := by
      decide +kernel
    constructor
    · cases outcome : twiceEnd.1 with
      | ok transaction => rfl
      | error error =>
          rw [outcome] at found
          cases found
    · intro identities listed
      rw [found] at listed
      cases listed
      decide
  rw [← same]
  cases prepared : twiceEnd.1 with
  | error error =>
      rw [prepared] at ended
      cases ended.1
  | ok transaction =>
      rw [prepared] at returned ended
      exact ⟨transaction, twiceEnd.2, returned, ended.2 _ rfl⟩

end Shortened

end Worktree
