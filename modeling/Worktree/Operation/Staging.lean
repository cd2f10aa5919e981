import Worktree.CrashLogic.Outcome
import Worktree.Operation.Prepare
import Worktree.Operation.Projecting
import Worktree.Operation.Scheduling
import Worktree.Undo.Discarding
/-
What a prepared transaction says about its paths.

A job that ends well gives back its own path, with the state that was projected
for it and with artifacts that were compared with the projection. The jobs are
collected only when all of them ended so.
-/

namespace Worktree

open CrashLogic

/-! ### Values of programs -/

section

variable {ε ε' α β ι ρ : Type} {host : Host} {weather : Weather}
  {allowed : {ρ : Type} → FsOp ρ → Prop} {known : World → Prop}

/-- A value the program ends with is good, whatever it does and whatever it meets. -/
abbrev Gains (host : Host) (weather : Weather) (program : ExceptT ε (Task FsOp) α)
    (good : α → Prop) : Prop :=
  Task.Yields (fsMachine host weather) (fun _ => True) (fun _ => True) program good

theorem upholds_any {post : α → Prop} (program : Task FsOp α) (holds : ∀ value, post value) :
    program.Upholds (fsMachine host weather) (fun _ => True) (fun _ => True) post := by
  induction program with
  | done value => exact holds value
  | call op next ih => exact ⟨.inr trivial, fun _ answer _ _ _ => ih answer⟩

theorem gains_any (program : ExceptT ε (Task FsOp) α) :
    Gains host weather program fun _ => True :=
  upholds_any program.run fun _ _ _ => trivial

/-- What is raised is no value. -/
theorem gains_raise {good : α → Prop} (program : ExceptT ε (Task FsOp) β) (error : ε) :
    Gains host weather (program >>= fun _ => throw error) good :=
  Task.Yields.bind (gains_any program) fun _ _ => Task.yields_throw error

/-! ### Pools -/

/-- A job that unwinds has upheld what it upheld so far. -/
theorem unwindAfter_upholds {payload : Payload} (count : Nat) {program : Task FsOp (Except ε ρ)}
    {post : Except ε ρ → Prop}
    (upholds : program.Upholds (fsMachine host weather) allowed known post) :
    (unwindAfter payload count program).Upholds (fsMachine host weather) allowed known
      fun ended => ∀ result, ended = .returned result → post result := by
  induction count generalizing program with
  | zero => exact nofun
  | succ count ih =>
      cases program with
      | done result =>
          intro found same
          cases same
          exact upholds
      | call op next =>
          exact ⟨upholds.1, fun start answer finish knows stepped =>
            ih (upholds.2 start answer finish knows stepped)⟩

theorem unwinding_upholds {panic : Option (Nat × Payload)} {operation : ExceptT ε (Task FsOp) ρ}
    {good : ρ → Prop} (yields : Task.Yields (fsMachine host weather) allowed known operation good) :
    (catchUnwind <$> unwinding panic operation).Upholds (fsMachine host weather) allowed known
      fun result => result ≠ .error .cancelled ∧ ∀ value, result = .ok value → good value := by
  have ended : (unwinding panic operation).Upholds (fsMachine host weather) allowed known
      fun ended => ∀ result, ended = .returned result →
        ∀ value, result = .ok value → good value := by
    cases panic with
    | some panic => exact unwindAfter_upholds panic.1 yields
    | none =>
        unfold unwinding
        rw [Task.upholds_map]
        apply Task.Upholds.mono yields
        intro result kept found same
        cases same
        exact kept
  rw [Task.upholds_map]
  apply ended.mono
  intro ended kept
  refine ⟨catchUnwind_ne_cancelled ended, fun value same => ?_⟩
  rcases ended with (error | found) | payload
  · cases same
  · cases same
    exact kept _ rfl _ rfl
  · cases same

theorem unwinding_gains {panic : Option (Nat × Payload)} {operation : ExceptT ε (Task FsOp) ρ}
    {good : ρ → Prop} (gains : Gains host weather operation good) :
    (catchUnwind <$> unwinding panic operation).Upholds (fsMachine host weather) (fun _ => True)
      (fun _ => True) fun result => result ≠ .error .cancelled ∧
        ∀ value, result = .ok value → good value :=
  unwinding_upholds gains

/-- What the jobs of a pool promise is delivered in input order, and a job is
cancelled only after a failure. -/
theorem mapUnwinding_contracts {items : List ι} {operation : Nat → ι → Task FsOp (JobEnd ε ρ)}
    {good : ι → ρ → Prop} (requestedWorkers : Nat) {start : World}
    {jobs : Nat → Task FsOp (Except (ScheduleError ε) ρ)}
    (contract : Contract (fsMachine host weather) items.length jobs)
    (same : jobs = fun index => match items[index]? with
      | some item => catchUnwind <$> operation index item
      | none => return .error .cancelled)
    (waiting : ∀ index, index < items.length → contract.waiting index start)
    (tells : ∀ index result finish, contract.ended index result finish →
      result ≠ .error .cancelled ∧
        ∀ item, items[index]? = some item → ∀ value, result = .ok value → good item value) :
    (mapUnwinding items requestedWorkers operation).Meets (fsMachine host weather).phased
      (fun _ _ => True) (fun results _ => List.Forall₂ (Delivers good) items results ∧
        (.error .cancelled ∈ results → ∃ error, error ≠ .cancelled ∧ .error error ∈ results))
      start := by
  subst same
  unfold mapUnwinding
  split
  · next nobody =>
      have empty : items = [] := by
        unfold boundedWorkerCount at nobody
        split at nobody
        · next none_given => exact List.length_eq_zero_iff.mp none_given
        · next some_given =>
            simp only [hardMaxWorkers] at nobody
            omega
      subst empty
      exact ⟨.nil, fun impossible => by cases impossible⟩
  · next some_worker =>
      rw [Task.meets_bind]
      apply contract.meets_spawn _ (Nat.pos_of_ne_zero some_worker) (fun _ _ => True)
      · exact waiting
      · trivial
      · intro stored finish each
        rw [Task.meets_pure, List.map_map]
        constructor
        · refine forall₂_map_range fun index item found value same => ?_
          have bound := (List.getElem?_eq_some_iff.mp found).1
          rcases each index bound with ⟨outcome, ended, known⟩ | ⟨missing, _⟩
          · rw [Function.comp_apply, ended] at same
            exact (tells index outcome finish known).2 item found value same
          · rw [Function.comp_apply, missing] at same
            cases same
        · intro among
          obtain ⟨index, within, same⟩ := List.mem_map.mp among
          have bound := List.mem_range.mp within
          rcases each index bound with ⟨outcome, ended, known⟩ | ⟨_, _, other, error, below, failed⟩
          · rw [Function.comp_apply, ended] at same
            exact absurd same (tells index outcome finish known).1
          · refine ⟨error, ?_, List.mem_map.mpr ⟨other, List.mem_range.mpr below, ?_⟩⟩
            · intro cancelled
              subst cancelled
              rcases each other below with ⟨outcome, ended, known⟩ | ⟨missing, _⟩
              · rw [failed] at ended
                cases ended
                exact (tells other _ finish known).1 rfl
              · rw [failed] at missing
                cases missing
            · rw [Function.comp_apply, failed]
              rfl

/-- A pool whose jobs may panic keeps what each job keeps, and delivers what is good. -/
theorem mapUnwinding_upholds {items : List ι} {operation : Nat → ι → Task FsOp (JobEnd ε ρ)}
    {good : ι → ρ → Prop} (requestedWorkers : Nat) {start : World}
    (maintains : (fsMachine host weather).Maintains allowed known)
    (upholds : ∀ index item, items[index]? = some item →
      (catchUnwind <$> operation index item).Upholds (fsMachine host weather) allowed known
        fun result => result ≠ .error .cancelled ∧
          ∀ value, result = .ok value → good item value)
    {guard : {κ : Type} → Phase FsOp κ → World → Prop} (knows : known start)
    (guarded : ∀ {κ : Type} (op : Phase FsOp κ), (∀ left,
      (fsMachine host weather).phased.torn op start left → known left) → guard op start) :
    (mapUnwinding items requestedWorkers operation).Meets (fsMachine host weather).phased guard
      (fun results finish => known finish ∧ List.Forall₂ (Delivers good) items results ∧
        (.error .cancelled ∈ results → ∃ error, error ≠ .cancelled ∧ .error error ∈ results))
      start := by
  have jobs : ∀ index, index < items.length →
      (match items[index]? with
        | some item => catchUnwind <$> operation index item
        | none => return .error .cancelled :
        Task FsOp (Except (ScheduleError ε) ρ)).Upholds (fsMachine host weather) allowed known
        fun result => result ≠ .error .cancelled ∧ ∀ item, items[index]? = some item →
          ∀ value, result = .ok value → good item value := by
    intro index bound
    rw [List.getElem?_eq_getElem bound]
    apply (upholds index _ (List.getElem?_eq_getElem bound)).mono
    intro result kept
    refine ⟨kept.1, fun item same => ?_⟩
    cases same
    exact kept.2
  have keeps : (mapUnwinding items requestedWorkers operation).Meets
      (fsMachine host weather).phased guard (fun _ finish => known finish) start := by
    unfold mapUnwinding
    split
    · exact knows
    · next some_worker =>
        have nonempty : 0 < items.length := by
          by_contra empty
          apply some_worker
          unfold boundedWorkerCount
          rw [if_pos (by omega)]
        rw [Task.meets_bind]
        refine (Contract.meets_spawn_upholds _ _ (Nat.pos_of_ne_zero some_worker) maintains jobs
          guard start knows (fun torn => guarded _ fun left came => torn left came nonempty)
          nonempty).mono fun results finish kept => ?_
        exact kept.1
  refine keeps.and (mapUnwinding_contracts requestedWorkers
    (Contract.ofUpholds _ maintains jobs) rfl (fun _ _ => knows) ?_)
  exact fun index result finish ended => ended.2

/-- What holds of the value of every job holds of what the pool delivers. -/
theorem mapUnwinding_delivers {items : List ι} {operation : Nat → ι → Task FsOp (JobEnd ε ρ)}
    {good : ι → ρ → Prop} (requestedWorkers : Nat) {start : World}
    (gains : ∀ index item, items[index]? = some item →
      (catchUnwind <$> operation index item).Upholds (fsMachine host weather) (fun _ => True)
        (fun _ => True) fun result => result ≠ .error .cancelled ∧
          ∀ value, result = .ok value → good item value) :
    (mapUnwinding items requestedWorkers operation).Meets (fsMachine host weather).phased
      (fun _ _ => True) (fun results _ => List.Forall₂ (Delivers good) items results ∧
        (.error .cancelled ∈ results → ∃ error, error ≠ .cancelled ∧ .error error ∈ results))
      start := by
  have maintains : (fsMachine host weather).Maintains (fun _ => True) (fun _ => True) :=
    ⟨fun _ _ _ _ _ _ _ => trivial, fun _ _ _ _ _ _ => trivial⟩
  exact (mapUnwinding_upholds requestedWorkers maintains gains trivial fun _ _ => trivial).mono
    fun results finish kept => kept.2

end

/-! ### One path -/

/-- The artifact is what the projection says. -/
def Matches (artifact : PresentEvidence) (sha256 : Sha256Hash) (permissions : PortablePermissions) :
    Prop :=
  artifact.sha256 = sha256 ∧ artifact.permissions = permissions

/-- The backup of a path, where it is present before. -/
def BackedUp : ProjectedInput → Option PresentEvidence → Prop
  | .absent, kept => kept = none
  | .present _ evidence, kept =>
      ∃ artifact, kept = some artifact ∧ Matches artifact evidence.sha256 evidence.permissions

/-- The staged output of a path, where it is present after. -/
def Put {T : Type} : ProjectedOutput T → SlotEvidence → Prop
  | .absent, made => made = .absent
  | .present output, made =>
      ∃ artifact, made = .present artifact ∧ Matches artifact output.sha256 output.permissions

/-- The staged path stands for the projected one. -/
structure Stands {T : Type} (id : String) (path : ProjectedPath T) (staged : StagedPath) :
    Prop where
  index : staged.stableIndex = path.stableIndex
  named : staged.path = path.path
  access : staged.access = path.access
  before : staged.before = path.before.evidence
  stageName : staged.stageName = (stageJob id path).stageName
  backupName : staged.backupName = (stageJob id path).backupName
  backup : BackedUp path.before staged.backup
  after : Put path.after staged.after

section

variable {T : Type} {crates : Crates T} {host : Host} {weather : Weather}
  {options : WorktreeOptions}

theorem finishArtifact_gains (access : TargetAccess) (name : String) (file : Ino)
    (permissions : PortablePermissions) (maxBytes : Nat) (expected : Sha256Hash) (path : String)
    (index : Nat) :
    Gains host weather (finishArtifact crates access name file permissions maxBytes expected path
      index) fun evidence => Matches evidence expected permissions := by
  unfold finishArtifact
  refine Task.Yields.bind (gains_any _) fun _ _ => ?_
  refine Task.Yields.bind (gains_any _) fun evidence _ => ?_
  refine yields_check fun matched => ?_
  rw [Bool.or_eq_true, decide_eq_true_eq, decide_eq_true_eq, not_or, not_not, not_not] at matched
  exact Task.yields_pure _ matched

theorem stageBackup_gains (job : StageJob T) :
    Gains host weather (stageBackup crates options job) (BackedUp job.path.before) := by
  unfold stageBackup
  cases before : job.path.before with
  | absent =>
      cases job.backupName with
      | none => exact Task.yields_pure _ rfl
      | some name => exact Task.yields_throw _
  | present source evidence =>
      cases job.backupName with
      | none => exact Task.yields_throw _
      | some name =>
          have written : Gains host weather (writeArtifact crates job.path.access name source
              evidence.permissions options.limits.maxSourceBytesPerFile evidence.sha256
              job.path.path job.path.stableIndex) fun artifact =>
                Matches artifact evidence.sha256 evidence.permissions := by
            unfold writeArtifact
            refine Task.Yields.bind (gains_any _) fun file _ => ?_
            refine Task.Yields.bind (gains_any _) fun _ _ => ?_
            exact finishArtifact_gains ..
          refine Task.Yields.bind written fun artifact matched => ?_
          exact Task.yields_pure _ ⟨artifact, rfl, matched⟩

theorem stageOutput_gains (job : StageJob T) :
    Gains host weather (stageOutput crates options job) fun made =>
      Put job.path.after (made.elim .absent .present) := by
  unfold stageOutput
  cases after : job.path.after with
  | absent =>
      cases job.stageName with
      | none => exact Task.yields_pure _ rfl
      | some name => exact Task.yields_throw _
  | present output =>
      cases job.stageName with
      | none => exact Task.yields_throw _
      | some name =>
          have written : Gains host weather (writeOutput crates job.path.access name output options
              job.path.path job.path.stableIndex) fun artifact =>
                Matches artifact output.sha256 output.permissions := by
            unfold writeOutput
            refine Task.Yields.bind (gains_any _) fun file _ => ?_
            refine Task.Yields.bind (gains_any _) fun _ _ => ?_
            exact finishArtifact_gains ..
          refine Task.Yields.bind written fun artifact matched => ?_
          exact Task.yields_pure _ ⟨artifact, rfl, matched⟩

theorem stageOne_gains (id : String) (path : ProjectedPath T) :
    Gains host weather (stageOne crates options (stageJob id path)) (Stands id path) := by
  unfold stageOne
  have artifacts : Gains host weather (stageArtifacts crates options (stageJob id path))
      fun found => found.1 = path.before.evidence ∧ BackedUp path.before found.2.1 ∧
        Put path.after (found.2.2.elim .absent .present) := by
    unfold stageArtifacts
    refine Task.Yields.bind (stageBackup_gains _) fun backup kept => ?_
    refine Task.Yields.bind (stageOutput_gains _) fun stage made => ?_
    refine Task.Yields.bind (gains_any _) fun _ _ => ?_
    exact Task.yields_pure _ ⟨rfl, kept, made⟩
  refine Task.Yields.bind (Task.yields_lift artifacts) fun result told => ?_
  rcases result with primary | ⟨before, backup, stage⟩
  · exact gains_raise _ primary
  · obtain ⟨same, kept, made⟩ := told _ rfl
    exact Task.yields_pure _ ⟨rfl, rfl, rfl, same, rfl, rfl, kept, made⟩

/-! ### All paths -/

theorem sortResults_sound {index : Nat}
    {results : List (Except (ScheduleError WorktreeError) StagedPath)} {paths : List StagedPath}
    (sorted : sortResults index results = (paths, none))
    (complete : .error .cancelled ∈ results →
      ∃ error, error ≠ .cancelled ∧ .error error ∈ results) :
    results = paths.map .ok := by
  have all : .error .cancelled ∉ results → ∀ (index : Nat) (paths : List StagedPath),
      sortResults index results = (paths, none) → results = paths.map .ok := by
    intro genuine
    clear complete sorted
    induction results with
    | nil =>
        intro index paths sorted
        cases sorted
        rfl
    | cons result rest ih =>
        intro index paths sorted
        rcases result with (error | message | _) | value
        · cases sorted
        · cases sorted
        · exact absurd List.mem_cons_self genuine
        · have tail := ih (fun later => genuine (List.mem_cons_of_mem _ later)) (index + 1)
            (sortResults (index + 1) rest).1 (by
              have second := congrArg Prod.snd sorted
              dsimp only [sortResults] at second
              exact Prod.ext rfl second)
          have first := congrArg Prod.fst sorted
          dsimp only [sortResults] at first
          rw [← first, List.map_cons, ← tail]
  refine all (fun cancelled => ?_) index paths sorted
  obtain ⟨error, genuine, among⟩ := complete cancelled
  have failed : ∀ (results : List (Except (ScheduleError WorktreeError) StagedPath)) (index : Nat),
      .error error ∈ results → (sortResults index results).2 ≠ none := by
    intro results
    induction results with
    | nil =>
        intro index impossible
        cases impossible
    | cons result rest ih =>
        intro index listed
        rcases result with (other | message | _) | value
        · exact fun impossible => by cases impossible
        · exact fun impossible => by cases impossible
        · rcases List.mem_cons.mp listed with same | later
          · cases same
            exact absurd rfl genuine
          · exact ih (index + 1) later
        · rcases List.mem_cons.mp listed with same | later
          · cases same
          · exact ih (index + 1) later
  exact failed results index among (by rw [sorted])

/-- What the pool delivers is what is collected, in order. -/
theorem stageAll_collects {good : ProjectedPath T → StagedPath → Prop}
    (panics : Nat → Option (Nat × Payload)) (projected : ProjectedPlan T) (id : String)
    (delivered : ∀ middle, (mapUnwinding (projected.paths.map (stageJob id))
      (options.workerCount crates.availableParallelism (projected.paths.map (stageJob id)).length)
      fun index job => unwinding (panics index) (stageOne crates options job)).Meets
      (fsMachine host weather).phased (fun _ _ => True) (fun results _ =>
        List.Forall₂ (Delivers fun (job : StageJob T) staged => good job.path staged)
          (projected.paths.map (stageJob id)) results ∧
        (.error .cancelled ∈ results → ∃ error, error ≠ .cancelled ∧ .error error ∈ results))
      middle) (writer : Writer) (start : World) :
    ((stageAll crates panics projected id options).run.run writer).Meets
      (fsMachine host weather).phased (fun _ _ => True) (fun result _ => ∀ value,
        result.1 = .ok value → value.1 = projected.operation ∧ value.2.1 = projected.operations ∧
          List.Forall₂ good projected.paths value.2.2) start := by
  have anything : ∀ {α : Type} (program : Journaled α) (writer : Writer) (here : World),
      (program.planning.run.run writer).Meets (fsMachine host weather).phased (fun _ _ => True)
        (fun _ _ => True) here := fun program writer here =>
    Task.Ends.meets (Task.ends_any fun _ => trivial) here
  unfold stageAll
  rw [Task.meets_session_bind]
  refine (anything _ writer start).mono fun result middle _ => ?_
  obtain ⟨error | _, writer⟩ := result
  · intro value impossible
    cases impossible
  dsimp only
  rw [Task.meets_session_bind]
  refine (anything _ writer middle).mono fun result middle _ => ?_
  obtain ⟨error | _, writer⟩ := result
  · intro value impossible
    cases impossible
  dsimp only
  rw [Task.meets_session_bind, Task.meets_session_task]
  refine (delivered middle).mono fun results middle told => ?_
  obtain ⟨stand, complete⟩ := told
  dsimp only
  rw [Task.meets_session_bind]
  have collected : ((beside (collectStaged results)).planning.run.run writer).Meets
      (fsMachine host weather).phased (fun _ _ => True) (fun result _ => ∀ paths,
        result.1 = .ok paths → List.Forall₂ good projected.paths paths) middle := by
    refine (Task.meets_phase _ _ _ _ _).mpr ?_
    unfold beside
    rw [Task.meets_session_lift]
    unfold collectStaged
    cases sorted : sortResults 0 results with
    | mk paths failed =>
        cases failed with
        | some error =>
            have raised : (cleanup paths >>= fun _ =>
                (throw error : Action (List StagedPath))).run.Ends fun result =>
                  ∀ value, result = .ok value → False := by
              rw [ExceptT.run_bind, Task.ends_bind]
              refine Task.ends_any fun result => ?_
              cases result with
              | ok removed => exact fun value impossible => by cases impossible
              | error failed => exact fun value impossible => by cases impossible
            refine (Task.Ends.meets raised middle).mono fun result finish none value same => ?_
            exact (none value same).elim
        | none =>
            intro value same
            cases same
            have values := sortResults_sound sorted complete
            rw [values, List.forall₂_map_left_iff, List.forall₂_map_right_iff] at stand
            exact stand.imp fun _ _ delivers => delivers _ rfl
  refine collected.mono fun result middle told => ?_
  obtain ⟨error | paths, writer⟩ := result
  · intro value impossible
    cases impossible
  dsimp only
  rw [Task.meets_session_bind]
  refine (anything _ writer middle).mono fun result finish _ => ?_
  obtain ⟨error | _, writer⟩ := result
  · intro value impossible
    cases impossible
  · intro value same
    cases same
    exact ⟨rfl, rfl, told paths rfl⟩

/-- The paths of a staged transaction stand for those of its projection, in order. -/
theorem stageAll_stands (panics : Nat → Option (Nat × Payload)) (projected : ProjectedPlan T)
    (id : String) (writer : Writer) (start : World) :
    ((stageAll crates panics projected id options).run.run writer).Meets
      (fsMachine host weather).phased (fun _ _ => True) (fun result _ => ∀ value,
        result.1 = .ok value → value.1 = projected.operation ∧ value.2.1 = projected.operations ∧
          List.Forall₂ (Stands id) projected.paths value.2.2) start := by
  refine stageAll_collects panics projected id (fun middle => ?_) writer start
  refine mapUnwinding_delivers _ fun index job found => ?_
  rw [List.getElem?_map] at found
  obtain ⟨path, _, rfl⟩ := Option.map_eq_some_iff.mp found
  exact unwinding_gains (stageOne_gains id path)

/-! ### Prepared transactions -/

theorem anything_session {α : Type} (program : Journaled α) (writer : Writer) (start : World) :
    (program.planning.run.run writer).Meets (fsMachine host weather).phased (fun _ _ => True)
      (fun _ _ => True) start :=
  Task.Ends.meets (Task.ends_any fun _ => trivial) start

theorem anything_planning {α : Type} (program : Action α) (start : World) :
    program.planning.run.Meets (fsMachine host weather).phased (fun _ _ => True)
      (fun _ _ => True) start :=
  Task.Ends.meets (Task.ends_any fun _ => trivial) start

variable {root : FsRoot}

/-- What is staged is what is prepared. -/
theorem prepareJournaled_collects {good : ProjectedPath T → StagedPath → Prop}
    (panics : Nat → Option (Nat × Payload)) (plan : WorktreePlan T) (fingerprint : Sha256Hash)
    (control : ControlDir) (projected : ProjectedPlan T) (id : String)
    (staging : ∀ writer here, ((stageAll crates panics projected id options).run.run writer).Meets
      (fsMachine host weather).phased (fun _ _ => True) (fun result _ => ∀ value,
        result.1 = .ok value → List.Forall₂ good projected.paths value.2.2) here)
    (writer : Writer) (start : World) :
    ((prepareJournaled crates panics plan fingerprint root control projected id
      options).run.run writer).Meets (fsMachine host weather).phased (fun _ _ => True)
      (fun result _ => ∀ value, result.1 = .ok value →
        List.Forall₂ good projected.paths value.2.2) start := by
  unfold prepareJournaled
  rw [Task.meets_session_bind]
  refine (anything_session _ writer start).mono fun result middle _ => ?_
  obtain ⟨error | _, writer⟩ := result
  · intro value impossible
    cases impossible
  dsimp only
  rw [Task.meets_session_bind]
  have staged : ((stageOrAbort crates panics control projected id options).run.run writer).Meets
      (fsMachine host weather).phased (fun _ _ => True) (fun result _ => ∀ value,
        result.1 = .ok value → List.Forall₂ good projected.paths value.2.2) middle := by
    unfold stageOrAbort
    rw [Task.meets_session_bind, ExceptT.run_lift, StateT.run_map, Task.meets_map]
    refine (staging writer middle).mono fun result here stands => ?_
    obtain ⟨error | value, writer⟩ := result
    · change Task.Meets _ _ (StateT.run (ExceptT.run (if error.recoveryRequired = true then _
        else _)) writer) _ here
      split
      · intro value impossible
        cases impossible
      · rw [Task.meets_session_bind]
        refine (anything_session _ writer here).mono fun result finish _ => ?_
        obtain ⟨failed | _, writer⟩ := result
        · intro value impossible
          cases impossible
        · intro value impossible
          cases impossible
    · intro found same
      cases same
      exact stands value rfl
  refine staged.mono fun result middle stands => ?_
  obtain ⟨error | ⟨operation, operations, paths⟩, writer⟩ := result
  · intro value impossible
    cases impossible
  have told := stands _ rfl
  dsimp only
  rw [Task.meets_session_bind]
  refine (anything_session _ writer middle).mono fun result middle _ => ?_
  obtain ⟨error | _, writer⟩ := result
  · intro value impossible
    cases impossible
  dsimp only
  rw [Task.meets_session_bind]
  refine (anything_session _ writer middle).mono fun result middle _ => ?_
  obtain ⟨error | _, writer⟩ := result
  · intro value impossible
    cases impossible
  · intro value same
    cases same
    exact told

/-- A prepared transaction has a staged path for every projected one. -/
theorem prepareLocked_collects {known : ProjectedPlan T → Prop}
    {good : String → ProjectedPath T → StagedPath → Prop} (panics : Nat → Option (Nat × Payload))
    (plan : WorktreePlan T) (fingerprint : Sha256Hash) (locked : TransactionLock) (start : World)
    (projecting : (project crates root options plan).run.Meets (fsMachine host weather).phased
      (fun _ _ => True) (fun result finish => finish = start ∧ ∀ projected,
        result = .ok projected → known projected) start)
    (staging : ∀ projected id writer here, known projected → isValidId id = true →
      ((stageAll crates panics projected id options).run.run writer).Meets
        (fsMachine host weather).phased (fun _ _ => True) (fun result _ => ∀ value,
          result.1 = .ok value → List.Forall₂ (good id) projected.paths value.2.2) here) :
    (prepareLocked crates panics root options plan fingerprint locked).run.Meets
      (fsMachine host weather).phased (fun _ _ => True) (fun result _ => ∀ transaction,
        result = .ok transaction → ∃ projected, known projected ∧
          List.Forall₂ (good transaction.transactionId) projected.paths transaction.paths ∧
          transaction.options = options) start := by
  unfold prepareLocked
  rw [Task.meets_except_bind]
  refine Task.Meets.mono ((Task.meets_phase _ _ _ _ _).mpr (Undo.ensureNoPending_reads.meets
    fun _ _ => trivial)) fun result here told => ?_
  obtain ⟨rfl, _⟩ := told
  cases result with
  | error error =>
      intro transaction impossible
      cases impossible
  | ok value =>
      dsimp only
      rw [Task.meets_except_bind]
      refine projecting.mono fun result here told => ?_
      obtain ⟨rfl, told⟩ := told
      cases result with
      | error error =>
          intro transaction impossible
          cases impossible
      | ok projected =>
          have knows := told projected rfl
          dsimp only
          rw [Task.meets_except_bind]
          refine Task.Meets.mono ((Task.meets_phase _ _ _ _ _).mpr (randomId_draws here))
            fun result drawn told => ?_
          cases result with
          | error error =>
              intro transaction impossible
              cases impossible
          | ok id =>
              dsimp only
              rw [Task.meets_except_bind]
              refine (anything_planning _ drawn).mono fun result made _ => ?_
              cases result with
              | error error =>
                  intro transaction impossible
                  cases impossible
              | ok writer =>
                  dsimp only
                  rw [Task.meets_except_bind, Task.meets_except_lift]
                  have valid : isValidId id = true := told.2.2 id rfl
                  refine (prepareJournaled_collects panics plan fingerprint locked.control projected
                    id (fun writer here => staging projected id writer here knows valid) writer
                    made).mono fun result finish stands => ?_
                  obtain ⟨error | value, journal⟩ := result
                  · intro transaction impossible
                    cases impossible
                  · intro transaction same
                    cases same
                    exact ⟨projected, knows, stands value rfl, rfl⟩

end

end Worktree
