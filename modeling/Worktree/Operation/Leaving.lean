import Worktree.CrashLogic.Outcome
import Worktree.Crates.Plain
import Worktree.Filesystem.Aside
import Worktree.Journal.Carrying
import Worktree.Operation.Flagging
import Worktree.Operation.Noting
import Worktree.Operation.Prepare
import Worktree.Operation.Projecting
import Worktree.Undo.Discarding
/-
What a failed preparation leaves behind.

Every staging job works on its own artifacts among the others, and clears them
when it fails. Only the error of the first failing job is returned, and it
decides whether the journal is dropped: it hides a later job that could not
clear its artifacts, and nobody clears the artifacts of a job that panicked.
-/

namespace Worktree

open CrashLogic

variable {T : Type}

def StagedPath.names (path : StagedPath) : List String :=
  path.stageName.toList ++ path.backupName.toList

/-- The path staged by the job, with the artifacts of the job. -/
structure StagedFor (job : StageJob T) (path : StagedPath) : Prop where
  access : path.access = job.path.access
  names : path.names = job.names

/-- The backup is as long as its source. -/
def Sized (before : ProjectedInput) (kept : Option PresentEvidence) : Prop :=
  ∀ source evidence, before = .present source evidence → ∀ artifact, kept = some artifact →
    artifact.bytes = source.length

/-! ### One job -/

section

variable {crates : Crates T} {host : Host} {weather : Weather} {options : WorktreeOptions}
  {own : Slot → Prop} {guard : {ρ : Type} → FsOp ρ → World → Prop} {rely : World → World → Prop}
  {start : World} {access : TargetAccess} {name : String} {file : Ino}

theorem finishArtifact_writes (permissions : PortablePermissions) (maxBytes : Nat)
    (expected : Sha256Hash) (path : String) (index : Nat) :
    Task.Yields (fsMachine host weather) (Scribbles file) (fun _ => True)
      (finishArtifact crates access name file permissions maxBytes expected path index)
      fun _ => True := by
  unfold finishArtifact
  refine Task.Yields.bind (Task.yields_adapt (Task.Yields.bind
    (yields_quiet (quiet_metadata file)) fun metadata _ => Task.Yields.bind
      (yields_call rfl) fun _ _ => yields_quiet (quiet_syncFile file))) fun _ _ => ?_
  refine Task.Yields.bind (Task.yields_adapt (Reads.yields
    (access.artifactEvidence_reads crates.sha256 name maxBytes))) fun evidence _ => ?_
  exact yields_check fun _ => Task.yields_pure _ trivial

theorem writeRecipe_writes (recipe : OutputRecipe T) (path : String) (index : Nat) :
    Task.Yields (fsMachine host weather) (Scribbles file) (fun _ => True)
      (writeRecipe crates options file recipe path index) fun _ => True := by
  unfold writeRecipe
  cases recipe with
  | exact source => exact Task.yields_adapt (yields_call rfl)
  | edited source edits =>
      dsimp only
      cases crates.prepareEdits (applyLimits options) source edits with
      | error error => exact Task.yields_throw _
      | ok prepared =>
          exact Task.yields_adapt (Task.yields_forM fun chunk _ => yields_call rfl)

theorem finishArtifact_sized (shared : Shared host weather own guard rely)
    (mine : own (host.slot access.parent name)) {bytes : Bytes} (permissions : PortablePermissions)
    (maxBytes : Nat) (expected : Sha256Hash) (path : String) (index : Nat)
    (filled : Filled (host.slot access.parent name) file bytes start) :
    (finishArtifact crates access name file permissions maxBytes expected path index).run.Under
      (fsMachine host weather) guard rely (Aside own) (fun result _ =>
        ∀ evidence, result = .ok evidence → evidence.bytes = bytes.length) start := by
  unfold finishArtifact
  have synced : Task.Yields (fsMachine host weather) (Chmods file) (fun _ => True)
      (orElse (do
          let metadata ← perform (.metadata file)
          perform (.setPermissions file (permissions.applyTo metadata.mode))
          perform (.syncFile file))
        (stageIo path index "failed to synchronize artifact")) fun _ => True :=
    Task.yields_adapt (Task.Yields.bind (yields_quiet (quiet_metadata file)) fun metadata _ =>
      Task.Yields.bind (yields_call rfl) fun _ _ => yields_quiet (quiet_syncFile file))
  refine Task.Under.except_then shared.refl
    (fun _ here => Filled (host.slot access.parent name) file bytes here)
    ((shared.chmods mine synced filled).mono fun _ _ still _ _ => still) (fun _ here still => ?_)
    fun _ _ _ impossible => by cases impossible
  refine Task.Under.except_then shared.refl
    (fun (evidence : PresentEvidence) _ => evidence.bytes = bytes.length)
    (Task.Under.except_adapt ((shared.measures mine crates.sha256 maxBytes still).mono
      fun result here told evidence same => ?_)) (fun evidence here sized => ?_)
    fun _ _ _ impossible => by cases impossible
  · cases result with
    | error error => cases same
    | ok found =>
        cases same
        exact told _ rfl
  · split
    · exact fun _ _ _ impossible => by cases impossible
    · intro later moved found same
      cases same
      exact sized

theorem writeArtifact_sized (shared : Shared host weather own guard rely)
    (mine : own (host.slot access.parent name)) (bytes : Bytes)
    (permissions : PortablePermissions) (maxBytes : Nat) (expected : Sha256Hash) (path : String)
    (index : Nat) :
    (writeArtifact crates access name bytes permissions maxBytes expected path index).run.Under
      (fsMachine host weather) guard rely (Aside own) (fun result _ =>
        ∀ evidence, result = .ok evidence → evidence.bytes = bytes.length) start := by
  unfold writeArtifact
  refine Task.Under.except_then shared.refl (Filled (host.slot access.parent name) · [])
    (Task.Under.except_adapt ((shared.createNew mine).mono fun result here created file same => ?_))
    (fun file here empty => ?_) fun _ _ _ impossible => by cases impossible
  · cases result with
    | error error => cases same
    | ok found =>
        cases same
        exact created _ rfl
  · refine Task.Under.except_then shared.refl
      (fun _ here => Filled (host.slot access.parent name) file bytes here)
      (Task.Under.except_adapt ((shared.writes mine empty).mono
        fun result here written value same => ?_))
      (fun _ here filled => finishArtifact_sized shared mine permissions maxBytes expected path
        index filled) fun _ _ _ impossible => by cases impossible
    cases result with
    | error error => cases same
    | ok found => exact written _ rfl

/-- Whatever becomes of it, the artifact is written beside the others' work. -/
theorem writeOutput_under (shared : Shared host weather own guard rely)
    (mine : own (host.slot access.parent name)) (present : ProjectedPresent T) (path : String)
    (index : Nat) :
    (writeOutput crates access name present options path index).run.Under
      (fsMachine host weather) guard rely (Aside own) (fun _ _ => True) start := by
  unfold writeOutput
  refine Task.Under.except_then shared.refl (Sole (host.slot access.parent name))
    (Task.Under.except_adapt ((shared.createNew mine).mono fun result here created file same => ?_))
    (fun file here single => ?_) fun _ _ => trivial
  · cases result with
    | error error => cases same
    | ok found =>
        cases same
        exact (created _ rfl).sole
  · have writes : Task.Yields (fsMachine host weather) (Scribbles file) (fun _ => True)
        (do
          writeRecipe crates options file present.recipe path index
          finishArtifact crates access name file present.permissions
            options.limits.maxOutputBytesPerFile present.sha256 path index)
        fun _ => True :=
      Task.Yields.bind (writeRecipe_writes present.recipe path index) fun _ _ =>
        finishArtifact_writes present.permissions _ present.sha256 path index
    exact (shared.scribbles mine writes single).mono fun _ _ _ => trivial

variable {job : StageJob T}

theorem stageBackup_sized (shared : Shared host weather own guard rely)
    (mine : ∀ name ∈ job.names, own (host.slot job.path.access.parent name)) :
    (stageBackup crates options job).run.Under (fsMachine host weather) guard rely (Aside own)
      (fun result _ => ∀ kept, result = .ok kept → Sized job.path.before kept) start := by
  unfold stageBackup
  split
  · next source evidence name before named =>
      have owned : own (host.slot job.path.access.parent name) :=
        mine name (List.mem_append_right _ (by rw [named]; exact List.mem_singleton_self name))
      refine Task.Under.except_then shared.refl
        (fun (artifact : PresentEvidence) _ => artifact.bytes = source.length)
        (writeArtifact_sized shared owned _ _ _ _ _ _) (fun artifact here sized => ?_)
        fun _ _ _ impossible => by cases impossible
      intro later moved kept same source' evidence' before' artifact' made
      cases same
      cases made
      rw [before] at before'
      cases before'
      exact sized
  · next before _ =>
      intro here moved kept same source evidence before'
      rw [before] at before'
      cases before'
  · exact fun _ _ _ impossible => by cases impossible

theorem stageOutput_under (shared : Shared host weather own guard rely)
    (mine : ∀ name ∈ job.names, own (host.slot job.path.access.parent name)) :
    (stageOutput crates options job).run.Under (fsMachine host weather) guard rely (Aside own)
      (fun _ _ => True) start := by
  unfold stageOutput
  split
  · next present name after named =>
      have owned : own (host.slot job.path.access.parent name) :=
        mine name (List.mem_append_left _ (by rw [named]; exact List.mem_singleton_self name))
      exact Task.Under.except_then shared.refl (fun _ _ => True)
        ((writeOutput_under shared owned _ _ _).mono fun _ _ _ _ _ => trivial)
        (fun _ _ _ _ _ => trivial) fun _ _ => trivial
  · exact fun _ _ => trivial
  · exact fun _ _ => trivial

theorem stageArtifacts_under (shared : Shared host weather own guard rely)
    (mine : ∀ name ∈ job.names, own (host.slot job.path.access.parent name)) :
    (stageArtifacts crates options job).run.Under (fsMachine host weather) guard rely (Aside own)
      (fun result _ => ∀ made, result = .ok made → Sized job.path.before made.2.1) start := by
  unfold stageArtifacts
  refine Task.Under.except_then shared.refl (fun kept _ => Sized job.path.before kept)
    (stageBackup_sized shared mine) (fun backup here sized => ?_)
    fun _ _ _ impossible => by cases impossible
  refine Task.Under.except_then shared.refl (fun _ _ => True)
    ((stageOutput_under shared mine).mono fun _ _ _ _ _ => trivial) (fun stage here _ => ?_)
    fun _ _ _ impossible => by cases impossible
  refine Task.Under.except_then shared.refl (fun _ _ => True)
    ((shared.reads (Task.yields_adapt job.path.access.syncParent_reads) (fun _ => True)
      (fun _ _ _ _ => trivial) trivial).mono fun _ _ _ _ _ => trivial) (fun _ here _ => ?_)
    fun _ _ _ impossible => by cases impossible
  intro later moved made same
  cases same
  exact sized

/-! ### Clearing the artifacts of a job -/

/-- Clears the artifacts one after the other, or asks for a recovery. -/
theorem discardArtifacts_under (shared : Shared host weather own guard rely)
    {names : List String} (mine : ∀ name ∈ names, own (host.slot job.path.access.parent name))
    (gone : Slot → Prop) (within : ∀ slot, gone slot → own slot)
    (absent : ∀ slot, gone slot → start.table.lookup slot = none) :
    (names.forM (discardArtifact job)).run.Under (fsMachine host weather) guard rely (Aside own)
      (fun result here => match result with
        | .ok _ => ∀ slot, gone slot ∨ job.path.access.Beside host names slot →
            here.table.lookup slot = none
        | .error error => error.recoveryRequired = true) start := by
  induction names generalizing gone start with
  | nil =>
      intro here moved slot taken
      rcases taken with earlier | ⟨name, impossible, _⟩
      · exact shared.absent (within slot earlier) (absent slot earlier) moved
      · cases impossible
  | cons name rest ih =>
      have owned := mine name List.mem_cons_self
      refine Task.Under.except_bind shared.refl ?_
      unfold discardArtifact
      refine Task.Under.lift_bind shared.refl ((shared.removeArtifact owned within absent).mono
        fun result here cleared => ?_)
      cases result with
      | error error => exact fun later _ last _ => rfl
      | ok removed =>
          intro later moved
          refine (ih (fun name among => mine name (List.mem_cons_of_mem _ among))
            (fun slot => gone slot ∨ slot = host.slot job.path.access.parent name) ?_ ?_).mono
              fun result last told => ?_
          · rintro slot (earlier | rfl)
            · exact within slot earlier
            · exact owned
          · rintro slot (earlier | rfl)
            · exact shared.absent (within slot earlier) (cleared.1 slot earlier) moved
            · exact shared.absent owned (cleared.2 removed rfl) moved
          · cases result with
            | error error => exact told
            | ok value =>
                intro slot taken
                apply told slot
                rcases taken with earlier | ⟨other, among, rfl⟩
                · exact .inl (.inl earlier)
                · rcases List.mem_cons.mp among with rfl | later
                  · exact .inl (.inr rfl)
                  · exact .inr ⟨other, later, rfl⟩

/-- A job that fails without asking for a recovery leaves none of its artifacts. -/
theorem stageOne_under (shared : Shared host weather own guard rely)
    (mine : ∀ name ∈ job.names, own (host.slot job.path.access.parent name)) :
    (stageOne crates options job).run.Under (fsMachine host weather) guard rely (Aside own)
      (fun result here => match result with
        | .ok path => StagedFor job path ∧ Sized job.path.before path.backup
        | .error error => error.recoveryRequired = false →
            ∀ slot, job.path.access.Beside host job.names slot →
              here.table.lookup slot = none) start := by
  unfold stageOne
  refine Task.Under.lift_bind shared.refl ((stageArtifacts_under shared mine).mono
    fun result here sized => ?_)
  cases result with
  | ok staged => exact fun later moved => ⟨⟨rfl, rfl⟩, sized _ rfl⟩
  | error primary =>
      refine Task.Under.except_bind shared.refl ((discardArtifacts_under shared mine
        (fun _ => False) (fun _ => False.elim) fun _ => False.elim).mono
        fun result here told => ?_)
      cases result with
      | error error =>
          intro later moved plain
          rw [told] at plain
          cases plain
      | ok value =>
          intro later moved plain slot taken
          obtain ⟨name, among, rfl⟩ := taken
          exact shared.absent (mine name among) (told _ (.inr ⟨name, among, rfl⟩)) moved

end

/-! ### Whose artifacts they are -/

/-- The artifacts of the path with this index. -/
def ArtifactOf (host : Host) (id : String) (index : Nat) (slot : Slot) : Prop :=
  ∃ dir suffix, ArtifactKind suffix ∧ slot = host.slot dir (artifactName id index suffix)

/-- The artifacts of a transaction. -/
def Artifact (host : Host) (id : String) (slot : Slot) : Prop :=
  ∃ index, ArtifactOf host id index slot

/-- The artifacts of one of the jobs. -/
def JobSlots (host : Host) (jobs : List (StageJob T)) (index : Nat) (slot : Slot) : Prop :=
  ∃ job, jobs[index]? = some job ∧ job.path.access.Beside host job.names slot

/-- The artifacts of all jobs. -/
def PoolSlots (host : Host) (jobs : List (StageJob T)) (slot : Slot) : Prop :=
  ∃ index, JobSlots host jobs index slot

section

variable {host : Host} {id : String}

theorem ArtifactOf.index_eq {first second : Nat} {slot : Slot} (valid : isValidId id = true)
    (one : ArtifactOf host id first slot) (other : ArtifactOf host id second slot) :
    first = second := by
  obtain ⟨dir, left, known, rfl⟩ := one
  obtain ⟨dir', right, expected, same⟩ := other
  rw [slot_artifact valid dir first known, slot_artifact valid dir' second expected] at same
  exact artifactName_index known expected (congrArg Slot.name same)

/-- The jobs of the paths, numbered as they are listed. -/
theorem JobSlots.artifact {paths : List (ProjectedPath T)}
    (numbered : ∀ (index : Nat) (path : ProjectedPath T),
      paths[index]? = some path → path.stableIndex = index) {index : Nat} {slot : Slot}
    (among : JobSlots host (paths.map (stageJob id)) index slot) :
    ArtifactOf host id index slot := by
  obtain ⟨job, found, name, named, rfl⟩ := among
  rw [List.getElem?_map] at found
  obtain ⟨path, listed, rfl⟩ := Option.map_eq_some_iff.mp found
  have counted := numbered index path listed
  rcases List.mem_append.mp named with stage | backup
  · refine ⟨path.access.parent, "stage", .inl rfl, ?_⟩
    simp only [stageJob] at stage
    cases after : path.after with
    | absent =>
        rw [after] at stage
        cases stage
    | present present =>
        rw [after, counted] at stage
        rw [List.mem_singleton.mp stage]
        rfl
  · refine ⟨path.access.parent, "backup", .inr rfl, ?_⟩
    simp only [stageJob] at backup
    cases before : path.before with
    | absent =>
        rw [before] at backup
        cases backup
    | present source evidence =>
        rw [before, counted] at backup
        rw [List.mem_singleton.mp backup]
        rfl

end

/-! ### All jobs -/

/-- What is known of a job that ended. -/
def Ended (host : Host) (panics : Nat → Option (Nat × Payload)) (jobs : List (StageJob T))
    (base : World) (index : Nat) (outcome : Except (ScheduleError WorktreeError) StagedPath)
    (here : World) : Prop :=
  match outcome with
  | .ok path => ∃ job, jobs[index]? = some job ∧ StagedFor job path
  | .error (.operation error) => error.recoveryRequired = false →
      ∀ slot, JobSlots host jobs index slot → here.table.lookup slot = none
  | .error (.panicked _) => AtOnce (panics index) →
      ∀ slot, JobSlots host jobs index slot → Undisturbed slot base here
  | .error .cancelled => False

section

variable {host : Host} {weather : Weather} {panics : Nat → Option (Nat × Payload)}
  {jobs : List (StageJob T)} {base : World}

theorem Ended.stable {index : Nat} {outcome : Except (ScheduleError WorktreeError) StagedPath}
    {here finish : World} (ended : Ended host panics jobs base index outcome here)
    (moved : Aside (fun slot => PoolSlots host jobs slot ∧ ¬ JobSlots host jobs index slot) here
      finish) : Ended host panics jobs base index outcome finish := by
  rcases outcome with (error | message | _) | path
  · exact fun plain slot mine => moved.absent (fun other => other.2 mine) (ended plain slot mine)
  · exact fun early slot mine =>
      (ended early slot mine).trans (moved.rest slot fun other => other.2 mine)
  · exact ended
  · exact ended

/-- The jobs of the pool, each of which may panic. -/
def stagingJobs (crates : Crates T) (options : WorktreeOptions)
    (panics : Nat → Option (Nat × Payload)) (jobs : List (StageJob T)) (index : Nat) :
    Task FsOp (Except (ScheduleError WorktreeError) StagedPath) :=
  match jobs[index]? with
  | some job => catchUnwind <$> unwinding (panics index) (stageOne crates options job)
  | none => return .error .cancelled

theorem staging_refl (jobs : List (StageJob T)) (index : Nat) (here : World) :
    Aside (fun slot => PoolSlots host jobs slot ∧ ¬ JobSlots host jobs index slot) here here :=
  Aside.refl _ here

theorem staging_trans (jobs : List (StageJob T)) (index : Nat) (first second third : World)
    (one : Aside (fun slot => PoolSlots host jobs slot ∧ ¬ JobSlots host jobs index slot) first
      second)
    (other : Aside (fun slot => PoolSlots host jobs slot ∧ ¬ JobSlots host jobs index slot) second
      third) :
    Aside (fun slot => PoolSlots host jobs slot ∧ ¬ JobSlots host jobs index slot) first third :=
  one.trans other

/-- What one job does is outside the slots of every other. -/
theorem staging_others
    (apart : ∀ index other slot, JobSlots host jobs index slot → JobSlots host jobs other slot →
      index = other) (index other : Nat) (_ : index < jobs.length) (_ : other < jobs.length)
    (different : index ≠ other) (here finish : World)
    (moved : Aside (JobSlots host jobs index) here finish) :
    Aside (fun slot => PoolSlots host jobs slot ∧ ¬ JobSlots host jobs other slot) here finish :=
  moved.mono fun slot mine =>
    ⟨⟨index, mine⟩, fun yours => different (apart index other slot mine yours)⟩

/-- What the staging jobs promise each other. -/
def stagingContract (crates : Crates T) (host : Host) (weather : Weather)
    (options : WorktreeOptions) (panics : Nat → Option (Nat × Payload))
    (jobs : List (StageJob T)) (base : World)
    (apart : ∀ index other slot, JobSlots host jobs index slot → JobSlots host jobs other slot →
      index = other) :
    Contract (fsMachine host weather) jobs.length (stagingJobs crates options panics jobs) where
  rely := fun index => Aside fun slot => PoolSlots host jobs slot ∧ ¬ JobSlots host jobs index slot
  promise := fun index => Aside (JobSlots host jobs index)
  waiting := fun index here => Aside (PoolSlots host jobs) base here ∧
    ∀ slot, JobSlots host jobs index slot → Undisturbed slot base here
  middle := fun _ _ => True
  ended := fun index outcome here => Aside (PoolSlots host jobs) base here ∧
    Ended host panics jobs base index outcome here
  relyRefl := staging_refl jobs
  relyTrans := staging_trans jobs
  others := staging_others apart
  waitingStable := fun index here finish waiting moved =>
    ⟨waiting.1.trans (moved.mono fun slot among => among.1), fun slot mine =>
      (waiting.2 slot mine).trans (moved.rest slot fun other => other.2 mine)⟩
  middleStable := fun _ _ _ _ _ => trivial
  endedStable := fun index outcome here finish ended moved =>
    ⟨ended.1.trans (moved.mono fun slot among => among.1), ended.2.stable moved⟩
  waitingMiddle := fun _ _ _ => trivial
  endedMiddle := fun _ _ _ _ => trivial
  starts := by
    intro index bound here waiting
    have listed : jobs[index]? = some jobs[index] := List.getElem?_eq_getElem bound
    have shared : Shared host weather (JobSlots host jobs index)
        (fun op here => True ∧ ∀ left, (fsMachine host weather).torn op here left →
          True ∧ Aside (JobSlots host jobs index) here left)
        (Aside fun slot => PoolSlots host jobs slot ∧ ¬ JobSlots host jobs index slot) :=
      ⟨fun here => Aside.refl _ here, fun here finish moved => moved.mono fun slot other => other.2,
        fun op here torn => ⟨trivial, fun left came => ⟨trivial, torn left came⟩⟩⟩
    have staged : (stageOne crates options jobs[index]).run.Under (fsMachine host weather) _ _ _ _
        here := stageOne_under shared fun name among => ⟨jobs[index], listed, name, among, rfl⟩
    have worked := unwinding_under (fun here => Aside (PoolSlots host jobs) base here)
      (panics index) (fun here finish kept moved =>
        kept.trans (moved.mono fun slot among => among.1))
      (fun here finish kept moved => kept.trans (moved.mono fun slot mine => ⟨index, mine⟩))
      staged waiting.1
    simp only [stagingJobs, listed]
    by_cases early : AtOnce (panics index)
    · obtain ⟨payload, early⟩ := early
      rw [early]
      exact fun later moved => ⟨waiting.1.trans (moved.mono fun slot among => among.1),
        fun _ slot mine =>
          (waiting.2 slot mine).trans (moved.rest slot fun other => other.2 mine)⟩
    · refine Task.Under.map (worked.mono fun ending finish told => ⟨told.1, ?_⟩)
      rcases ending with (error | path) | payload
      · intro plain slot mine
        obtain ⟨job, found, beside⟩ := mine
        rw [listed] at found
        cases found
        exact told.2 _ rfl plain slot beside
      · exact ⟨jobs[index], listed, (told.2 _ rfl).1⟩
      · exact fun impossible => absurd impossible early

end

/-! ### Runs without mishaps -/

/-- The answers after which a journal may be there that the program does not
know of. -/
def CallMishap (host : Host) : {ρ : Type} → FsOp ρ → World → ρ → World → Prop
  | _, .io (.openFile dir name .createNew), _, .error _, finish =>
      name = operationJournal ∧ (finish.look (host.slot dir name)).isSome = true
  | _, .io (.removeFile dir name), _, .error error, finish =>
      name = operationJournal ∧ error.kind = .notFound ∧
        (finish.look (host.slot dir name)).isSome = true
  | _, _, _, _, _ => False

def PhaseMishap (host : Host) : {ρ : Type} → Phase FsOp ρ → World → ρ → World → Prop
  | _, .single op, start, answer, finish => CallMishap host op start answer finish
  | _, .spawn _ _ _, _, _, _ => False

/-- The machine in which none of them ever comes, and no pool hides an artifact. -/
abbrev mindful (host : Host) (weather : Weather) (panics : Nat → Option (Nat × Payload)) :
    Machine (Phase FsOp) World :=
  ((fsMachine host weather).watched noteOf (Hides panics)).without (PhaseMishap host)

section

variable {host : Host} {weather : Weather} {panics : Nat → Option (Nat × Payload)}
  {jobs : List (StageJob T)} {base : World} {crates : Crates T} {options : WorktreeOptions}

theorem mindful_step {ρ : Type} {op : Phase FsOp ρ} {start finish : World} {answer : ρ}
    (stepped : (mindful host weather panics).step op start answer finish) :
    (fsMachine host weather).phased.step op start answer finish :=
  Machine.phased_of_watched stepped.1

theorem sortResults_mem {index : Nat}
    {results : List (Except (ScheduleError WorktreeError) StagedPath)} {path : StagedPath} :
    path ∈ (sortResults index results).1 ↔ .ok path ∈ results := by
  induction results generalizing index with
  | nil => simp [sortResults]
  | cons result rest ih =>
      rcases result with (error | message | _) | value
      · simp [sortResults, ih]
      · simp [sortResults, ih]
      · simp [sortResults, ih]
      · simp [sortResults, ih]

theorem sortResults_none {index : Nat}
    {results : List (Except (ScheduleError WorktreeError) StagedPath)}
    (none_failed : (sortResults index results).2 = none) :
    ∀ result ∈ results, (∃ path, result = .ok path) ∨ result = .error .cancelled := by
  induction results generalizing index with
  | nil =>
      intro result impossible
      cases impossible
  | cons result rest ih =>
      intro found among
      rcases result with (error | message | _) | value
      · cases none_failed
      · cases none_failed
      · rcases List.mem_cons.mp among with rfl | later
        · exact .inr rfl
        · exact ih none_failed found later
      · rcases List.mem_cons.mp among with rfl | later
        · exact .inl ⟨value, rfl⟩
        · exact ih none_failed found later

theorem sortResults_length {index : Nat}
    {results : List (Except (ScheduleError WorktreeError) StagedPath)}
    (staged : ∀ result ∈ results, ∃ path, result = .ok path) :
    (sortResults index results).1.length = results.length := by
  induction results generalizing index with
  | nil => rfl
  | cons result rest ih =>
      obtain ⟨path, rfl⟩ := staged result List.mem_cons_self
      have tail : (sortResults (index + 1) rest).1.length = rest.length :=
        ih fun other among => staged other (List.mem_cons_of_mem _ among)
      simp only [sortResults, List.length_cons, tail]

/-- What the pool of staging jobs leaves. -/
structure Settled (host : Host) (jobs : List (StageJob T)) (base : World)
    (results : List (Except (ScheduleError WorktreeError) StagedPath)) (finish : World) :
    Prop where
  aside : Aside (PoolSlots host jobs) base finish
  count : results.length = jobs.length
  staged : ∀ (index : Nat) (path : StagedPath), results[index]? = some (.ok path) →
    ∃ job, jobs[index]? = some job ∧ StagedFor job path
  cleared : ∀ primary, (sortResults 0 results).2 = some primary →
    primary.recoveryRequired = false → ∀ (index : Nat) (error : ScheduleError WorktreeError),
      results[index]? = some (.error error) →
      ∀ slot, JobSlots host jobs index slot →
        finish.table.lookup slot = none ∨ Undisturbed slot base finish
  admitted : (sortResults 0 results).2 = none → ∀ result ∈ results, ∃ path : StagedPath,
    result = .ok path

/-- The error that is returned is the first failure. -/
theorem sortResults_first {index : Nat}
    {answer : List (Option (Except (ScheduleError WorktreeError) StagedPath))}
    {primary : WorktreeError}
    (admitted : ∀ place : Nat, answer[place]? ≠ some (some (.error .cancelled)))
    (found : (sortResults index (answer.map fun result =>
      result.getD (.error .cancelled))).2 = some primary) :
    ∃ first error, FirstFails answer first ∧ answer[first]? = some (some (.error error)) ∧
      (error = .operation primary ∨
        (∃ message, error = .panicked message) ∧ primary.recoveryRequired = false) := by
  induction answer generalizing index with
  | nil => cases found
  | cons result rest ih =>
      have later : ∀ place : Nat, rest[place]? ≠ some (some (.error .cancelled)) :=
        fun place => admitted (place + 1)
      rcases result with _ | (failure | message | _) | value
      · obtain ⟨first, error, failing, same, told⟩ := ih later found
        refine ⟨first + 1, error, failing.cons fun _ impossible => ?_, same, told⟩
        cases impossible
      · cases found
        exact ⟨0, _, ⟨⟨_, rfl⟩, fun _ impossible => absurd impossible (Nat.not_lt_zero _)⟩, rfl,
          .inl rfl⟩
      · cases found
        exact ⟨0, _, ⟨⟨_, rfl⟩, fun _ impossible => absurd impossible (Nat.not_lt_zero _)⟩, rfl,
          .inr ⟨⟨message, rfl⟩, rfl⟩⟩
      · exact absurd rfl (admitted 0)
      · obtain ⟨first, error, failing, same, told⟩ := ih later found
        refine ⟨first + 1, error, failing.cons fun _ impossible => ?_, same, told⟩
        cases impossible

/-- A failed job left nothing, was not begun, or gave its artifacts up. -/
theorem Ended.spares {id : String} {index : Nat} {error : ScheduleError WorktreeError}
    {notes : List CallNote} {here : World} {slot : Slot} (valid : isValidId id = true)
    (made : ∀ (index : Nat) (job : StageJob T), jobs[index]? = some job →
      ∃ path, job = stageJob id path)
    (ended : Ended host panics jobs base index (.error error) here)
    (returned : (stagingJobs crates options panics jobs index).Returns (notebook noteOf) []
      (.error error) notes)
    (kept : ¬ GivesUp (panics index) notes) (mine : JobSlots host jobs index slot) :
    here.table.lookup slot = none ∨ Undisturbed slot base here := by
  have among := mine
  obtain ⟨job, found, name, named, _⟩ := among
  obtain ⟨path, rfl⟩ := made index job found
  simp only [stagingJobs, found] at returned
  have noted := stagingJob_notes valid returned
  rcases error with error | message | _
  · apply Or.inl
    refine ended ?_ slot mine
    by_contra flagged
    exact kept (noted.1.mp ((Bool.not_eq_false _).mp flagged))
  · apply Or.inr
    refine ended ?_ slot mine
    by_contra later
    exact kept (noted.2 (List.ne_nil_of_mem named) later)
  · exact noted.elim

/-- Nobody gave an artifact up where the first failure asks for nothing. -/
theorem unhidden {id : String} {noted : Nat → List CallNote}
    {answer : List (Option (Except (ScheduleError WorktreeError) StagedPath))}
    {primary : WorktreeError} (valid : isValidId id = true)
    (made : ∀ (index : Nat) (job : StageJob T), jobs[index]? = some job →
      ∃ path, job = stageJob id path)
    (counted : answer.length = jobs.length)
    (returned : ∀ (index : Nat) outcome, answer[index]? = some (some outcome) →
      (stagingJobs crates options panics jobs index).Returns (notebook noteOf) [] outcome
        (noted index))
    (admitted : ∀ place : Nat, answer[place]? ≠ some (some (.error .cancelled)))
    (spared : ¬ Hides panics noted answer)
    (found : (sortResults 0 (answer.map fun result =>
      result.getD (.error .cancelled))).2 = some primary)
    (plain : primary.recoveryRequired = false) (index : Nat) (bound : index < jobs.length) :
    ¬ GivesUp (panics index) (noted index) := by
  intro given
  obtain ⟨first, error, failing, same, told⟩ := sortResults_first admitted found
  refine spared ⟨⟨first, failing, ?_⟩, index, counted ▸ bound, given⟩
  have returned := returned first _ same
  obtain ⟨within, _⟩ := List.getElem?_eq_some_iff.mp same
  have listed : jobs[first]? = some jobs[first] :=
    List.getElem?_eq_getElem (counted ▸ within)
  obtain ⟨path, shaped⟩ := made first _ listed
  simp only [stagingJobs, listed, shaped] at returned
  have noted := stagingJob_notes valid returned
  rcases told with rfl | ⟨⟨message, rfl⟩, _⟩
  · intro tells
    have flagged := noted.2.mpr tells
    rw [plain] at flagged
    cases flagged
  · exact noted.1

theorem settled_of_ended {id : String} {noted : Nat → List CallNote} {stored : Nat →
      Option (Except (ScheduleError WorktreeError) StagedPath)} {finish : World}
    (valid : isValidId id = true)
    (made : ∀ (index : Nat) (job : StageJob T), jobs[index]? = some job →
      ∃ path, job = stageJob id path)
    (aside : Aside (PoolSlots host jobs) base finish)
    (each : ∀ index, index < jobs.length →
      (∃ outcome, stored index = some outcome ∧
          Ended host panics jobs base index outcome finish) ∨
        (stored index = none ∧
          (∀ slot, JobSlots host jobs index slot → Undisturbed slot base finish) ∧
          ∃ other error, other < jobs.length ∧ stored other = some (.error error)))
    (returned : ∀ (index : Nat) outcome,
      ((List.range jobs.length).map stored)[index]? = some (some outcome) →
      (stagingJobs crates options panics jobs index).Returns (notebook noteOf) [] outcome
        (noted index))
    (spared : ¬ Hides panics noted ((List.range jobs.length).map stored)) :
    Settled host jobs base (((List.range jobs.length).map stored).map fun result =>
      result.getD (.error .cancelled)) finish := by
  have answered : ∀ index result, ((List.range jobs.length).map stored)[index]? = some result →
      index < jobs.length ∧ result = stored index := by
    intro index result same
    rw [List.getElem?_map] at same
    obtain ⟨place, listed, rfl⟩ := Option.map_eq_some_iff.mp same
    obtain ⟨bound, rfl⟩ := List.getElem?_eq_some_iff.mp listed
    rw [List.length_range] at bound
    rw [List.getElem_range]
    exact ⟨bound, rfl⟩
  have found : ∀ index result, (((List.range jobs.length).map stored).map fun result =>
      result.getD (.error .cancelled))[index]? = some result →
      index < jobs.length ∧ result = (stored index).getD (.error .cancelled) := by
    intro index result same
    rw [List.getElem?_map] at same
    obtain ⟨item, listed, rfl⟩ := Option.map_eq_some_iff.mp same
    obtain ⟨bound, rfl⟩ := answered index item listed
    exact ⟨bound, rfl⟩
  have given : ∀ index outcome, index < jobs.length → stored index = some outcome →
      ((List.range jobs.length).map stored)[index]? = some (some outcome) := by
    intro index outcome bound ended
    rw [List.getElem?_map, List.getElem?_range bound, Option.map_some, ended]
  have admitted : ∀ place : Nat,
      ((List.range jobs.length).map stored)[place]? ≠ some (some (.error .cancelled)) := by
    intro place same
    obtain ⟨bound, same⟩ := answered place _ same
    rcases each place bound with ⟨outcome, ended, known⟩ | ⟨missing, _, _⟩
    · rw [← same] at ended
      cases ended
      exact known
    · rw [missing] at same
      cases same
  refine ⟨aside, by simp, fun index path same => ?_, fun primary first plain index error same slot
    mine => ?_, fun nobody result among => ?_⟩
  · obtain ⟨bound, same⟩ := found index _ same
    rcases each index bound with ⟨outcome, ended, known⟩ | ⟨missing, _, _⟩
    · rw [ended] at same
      cases same
      exact known
    · rw [missing] at same
      cases same
  · obtain ⟨bound, same⟩ := found index _ same
    rcases each index bound with ⟨outcome, ended, known⟩ | ⟨_, untouched, _⟩
    · rw [ended] at same
      cases same
      refine known.spares valid made (returned index _ (given index _ bound ended)) ?_ mine
      exact unhidden valid made (by simp) returned admitted spared first plain index bound
    · exact .inr (untouched slot mine)
  · rcases sortResults_none nobody result among with staged | rfl
    · exact staged
    · exfalso
      obtain ⟨index, same⟩ := List.getElem?_of_mem among
      obtain ⟨bound, same⟩ := found index _ same
      have failed : ∃ other error, other < jobs.length ∧ stored other = some (.error error) := by
        rcases each index bound with ⟨outcome, ended, known⟩ | ⟨_, _, failed⟩
        · rw [ended] at same
          cases same
          exact known.elim
        · exact failed
      obtain ⟨other, error, within, failing⟩ := failed
      have listed : (.error error : Except (ScheduleError WorktreeError) StagedPath) ∈
          ((List.range jobs.length).map stored).map fun result =>
            result.getD (.error .cancelled) := by
        refine List.mem_map.mpr ⟨some (.error error), ?_, rfl⟩
        exact List.mem_of_getElem? (given other _ within failing)
      rcases sortResults_none nobody _ listed with ⟨path, impossible⟩ | cancelled
      · cases impossible
      · cases cancelled
        exact admitted other (given other _ within failing)

theorem stageJobs_settles {id : String} (valid : isValidId id = true)
    (panics : Nat → Option (Nat × Payload)) (requestedWorkers : Nat)
    (made : ∀ (index : Nat) (job : StageJob T), jobs[index]? = some job →
      ∃ path, job = stageJob id path)
    (artifacts : ∀ index slot, JobSlots host jobs index slot → ArtifactOf host id index slot) :
    (mapUnwinding jobs requestedWorkers fun index job =>
        unwinding (panics index) (stageOne crates options job)).Meets (mindful host weather panics)
      (fun _ _ => True) (Settled host jobs base) base := by
  unfold mapUnwinding
  split
  · next nobody =>
      have empty : jobs = [] := by
        unfold boundedWorkerCount at nobody
        split at nobody
        · next none_given => exact List.length_eq_zero_iff.mp none_given
        · next some_given =>
            simp only [hardMaxWorkers] at nobody
            omega
      subst empty
      refine ⟨Aside.refl _ _, rfl, fun index path same => ?_, fun primary first => ?_,
        fun _ result among => ?_⟩
      · cases same
      · cases first
      · cases among
  · next some_worker =>
      have nonempty : 0 < jobs.length := by
        by_contra empty
        apply some_worker
        unfold boundedWorkerCount
        rw [if_pos (by omega)]
      have apart : ∀ index other slot, JobSlots host jobs index slot →
          JobSlots host jobs other slot → index = other :=
        fun index other slot mine yours =>
          (artifacts index slot mine).index_eq valid (artifacts other slot yours)
      rw [Task.meets_bind, Task.meets_perform]
      refine ⟨trivial, fun answer finish came => ?_⟩
      have stepped : (mindful host weather panics).step
          (.spawn (boundedWorkerCount requestedWorkers jobs.length) jobs.length
            (stagingJobs crates options panics jobs)) base answer finish := by
        refine Eq.mp (congrArg (fun each => (mindful host weather panics).step
          (.spawn (boundedWorkerCount requestedWorkers jobs.length) jobs.length each) base answer
          finish) (funext fun index => ?_)) came
        unfold stagingJobs
        cases jobs[index]? <;> rfl
      have spawned :=
        (stagingContract crates host weather options panics jobs base apart).meets_spawn
        (boundedWorkerCount requestedWorkers jobs.length) (Nat.pos_of_ne_zero some_worker)
        (fun _ _ => True) (fun answer finish => ∃ stored, answer =
            (List.range jobs.length).map stored ∧ Aside (PoolSlots host jobs) base finish ∧
          ∀ index, index < jobs.length →
            (∃ outcome, stored index = some outcome ∧
              Ended host panics jobs base index outcome finish) ∨
            (stored index = none ∧
              (∀ slot, JobSlots host jobs index slot → Undisturbed slot base finish) ∧
              ∃ other error, other < jobs.length ∧ stored other = some (.error error))) base
        (fun index _ => ⟨Aside.refl _ _, fun slot _ => Undisturbed.refl slot base⟩) trivial
        (fun stored finish each => ?_)
      · obtain ⟨stored, rfl, aside, each⟩ := spawned.2 answer finish (mindful_step stepped)
        obtain ⟨noted, spared, returned⟩ := Machine.watched_spawn stepped.1
        exact settled_of_ended valid made aside each returned spared
      · refine ⟨stored, rfl, ?_, fun index bound => ?_⟩
        · rcases each 0 nonempty with ⟨_, _, ended⟩ | ⟨_, waiting, _⟩
          · exact ended.1
          · exact waiting.1
        · rcases each index bound with ⟨outcome, same, ended⟩ | ⟨missing, waiting, failed⟩
          · exact .inl ⟨outcome, same, ended.2⟩
          · exact .inr ⟨missing, waiting.2, failed⟩

/-! ### Cleaning up after the pool -/

/-- The artifacts of these paths. -/
def PathSlots (host : Host) (paths : List StagedPath) (slot : Slot) : Prop :=
  ∃ path ∈ paths, path.access.Beside host path.names slot

section

variable {own : Slot → Prop} {guard : {ρ : Type} → FsOp ρ → World → Prop}
  {rely : World → World → Prop} {start : World}

theorem cleanupPath_under (shared : Shared host weather own guard rely) (index : Nat)
    (path : StagedPath) {names : List String}
    (mine : ∀ name ∈ names, own (host.slot path.access.parent name)) (gone : Slot → Prop)
    (within : ∀ slot, gone slot → own slot)
    (absent : ∀ slot, gone slot → start.table.lookup slot = none) :
    (cleanupPath index path names).run.Under (fsMachine host weather) guard rely (Aside own)
      (fun result here => match result with
        | .ok _ => ∀ slot, gone slot ∨ path.access.Beside host names slot →
            here.table.lookup slot = none
        | .error error => error.recoveryRequired = true) start := by
  induction names generalizing gone start with
  | nil =>
      intro here moved slot taken
      rcases taken with earlier | ⟨name, impossible, _⟩
      · exact shared.absent (within slot earlier) (absent slot earlier) moved
      · cases impossible
  | cons name rest ih =>
      have owned := mine name List.mem_cons_self
      unfold cleanupPath
      refine Task.Under.except_bind shared.refl (Task.Under.except_adapt
        ((shared.removeArtifact owned within absent).mono fun result here cleared => ?_))
      cases result with
      | error error => exact fun later _ => rfl
      | ok removed =>
          refine Task.Under.except_bind shared.refl ((ih
            (fun name among => mine name (List.mem_cons_of_mem _ among))
            (fun slot => gone slot ∨ slot = host.slot path.access.parent name) ?_ ?_).mono
            fun result last told => ?_)
          · rintro slot (earlier | rfl)
            · exact within slot earlier
            · exact owned
          · rintro slot (earlier | rfl)
            · exact cleared.1 slot earlier
            · exact cleared.2 removed rfl
          · cases result with
            | error error => exact fun later _ => told
            | ok count =>
                intro later moved slot taken
                rcases taken with earlier | ⟨other, among, rfl⟩
                · exact shared.absent (within slot earlier) (told slot (.inl (.inl earlier))) moved
                · refine shared.absent (mine other among) (told _ ?_) moved
                  rcases List.mem_cons.mp among with rfl | behind
                  · exact .inl (.inr rfl)
                  · exact .inr ⟨other, behind, rfl⟩

theorem cleanupFrom_under (shared : Shared host weather own guard rely) (index : Nat)
    {paths : List StagedPath} (mine : ∀ slot, PathSlots host paths slot → own slot)
    (gone : Slot → Prop) (within : ∀ slot, gone slot → own slot)
    (absent : ∀ slot, gone slot → start.table.lookup slot = none) :
    (cleanupFrom index paths).run.Under (fsMachine host weather) guard rely (Aside own)
      (fun result here => match result with
        | .ok _ => ∀ slot, gone slot ∨ PathSlots host paths slot → here.table.lookup slot = none
        | .error error => error.recoveryRequired = true) start := by
  induction paths generalizing index gone start with
  | nil =>
      intro here moved slot taken
      rcases taken with earlier | ⟨path, impossible, _⟩
      · exact shared.absent (within slot earlier) (absent slot earlier) moved
      · cases impossible
  | cons path rest ih =>
      have owned : ∀ slot, path.access.Beside host path.names slot → own slot :=
        fun slot beside => mine slot ⟨path, List.mem_cons_self, beside⟩
      unfold cleanupFrom
      refine Task.Under.except_bind shared.refl ((cleanupPath_under shared index path
        (fun name among => owned _ ⟨name, among, rfl⟩) gone within absent).mono
        fun result here cleared => ?_)
      cases result with
      | error error => exact fun later _ => cleared
      | ok removed =>
          refine Task.Under.except_bind shared.refl ((ih (index + 1)
            (fun slot taken => mine slot ?_)
            (fun slot => gone slot ∨ path.access.Beside host path.names slot) ?_ cleared).mono
            fun result last told => ?_)
          · obtain ⟨other, among, beside⟩ := taken
            exact ⟨other, List.mem_cons_of_mem _ among, beside⟩
          · rintro slot (earlier | beside)
            · exact within slot earlier
            · exact owned slot beside
          · cases result with
            | error error => exact fun later _ => told
            | ok count =>
                intro later moved slot taken
                rcases taken with earlier | ⟨other, among, beside⟩
                · exact shared.absent (within slot earlier) (told slot (.inl (.inl earlier))) moved
                · refine shared.absent (mine slot ⟨other, among, beside⟩) (told slot ?_) moved
                  rcases List.mem_cons.mp among with rfl | behind
                  · exact .inl (.inr beside)
                  · exact .inr ⟨other, behind, beside⟩

end

/-- Nothing of the artifacts is left that was not there before. -/
def Cleared (host : Host) (jobs : List (StageJob T)) (base finish : World) : Prop :=
  ∀ slot, PoolSlots host jobs slot →
    finish.table.lookup slot = none ∨ Undisturbed slot base finish

theorem Settled.paths {results : List (Except (ScheduleError WorktreeError) StagedPath)}
    {middle : World} (settled : Settled host jobs base results middle) {slot : Slot}
    (among : PathSlots host (sortResults 0 results).1 slot) : PoolSlots host jobs slot := by
  obtain ⟨path, listed, name, named, rfl⟩ := among
  obtain ⟨index, found⟩ := List.getElem?_of_mem (sortResults_mem.mp listed)
  obtain ⟨job, there, staged⟩ := settled.staged index path found
  rw [staged.access]
  rw [staged.names] at named
  exact ⟨index, job, there, name, named, rfl⟩

/-- Who clears away what the ended jobs staged leaves nothing, unless somebody
asks for a recovery. -/
theorem collectStaged_meets {results : List (Except (ScheduleError WorktreeError) StagedPath)}
    {middle : World} (settled : Settled host jobs base results middle) :
    (collectStaged results).run.Meets (fsMachine host weather) (fun _ _ => True)
      (fun result finish => Aside (PoolSlots host jobs) base finish ∧ match result with
        | .ok paths => paths.length = jobs.length
        | .error error => error.recoveryRequired = false → Cleared host jobs base finish)
      middle := by
  unfold collectStaged cleanup
  cases sorted : sortResults 0 results with
  | mk paths failed =>
      cases failed with
      | none =>
          have staged := settled.admitted (by rw [sorted])
          have counted : (sortResults 0 results).1.length = results.length :=
            sortResults_length staged
          rw [sorted] at counted
          exact ⟨settled.aside, counted.trans settled.count⟩
      | some primary =>
          have mine : ∀ slot, PathSlots host paths slot → PoolSlots host jobs slot := by
            intro slot taken
            apply settled.paths
            rw [sorted]
            exact taken
          have alone : Shared host weather (PathSlots host paths) (fun _ _ => True) Still :=
            shared_alone
          have cleaned : (cleanupFrom 0 paths).run.Under (fsMachine host weather)
              (fun _ _ => True) Still (Aside (PathSlots host paths)) _ middle :=
            cleanupFrom_under alone 0 (fun _ => id) (fun _ => False) (fun _ => False.elim)
              fun _ => False.elim
          have kept := cleaned.keeps (fun here => Aside (PathSlots host paths) middle here)
            (fun here finish kept same => by rw [same]; exact kept)
            (fun here finish kept moved => kept.trans moved) (Aside.refl _ middle)
          rw [Task.meets_except_bind]
          refine Task.Meets.mono (Task.Under.meets alone.refl kept) fun result finish told => ?_
          have aside : Aside (PoolSlots host jobs) base finish :=
            settled.aside.trans (told.2.mono mine)
          cases result with
          | error error =>
              refine ⟨aside, fun plain => ?_⟩
              rw [told.1] at plain
              cases plain
          | ok count =>
              refine ⟨aside, fun plain slot among => ?_⟩
              by_cases taken : PathSlots host paths slot
              · exact .inl (told.1 slot (.inr taken))
              · obtain ⟨index, job, there, beside⟩ := among
                have bound : index < results.length := by
                  rw [settled.count]
                  exact (List.getElem?_eq_some_iff.mp there).1
                have listed : results[index]? = some results[index] :=
                  List.getElem?_eq_getElem bound
                cases came : results[index] with
                | ok path =>
                    exfalso
                    rw [came] at listed
                    obtain ⟨other, standing, staged⟩ := settled.staged index path listed
                    rw [there] at standing
                    cases standing
                    apply taken
                    refine ⟨path, ?_, ?_⟩
                    · have member : path ∈ (sortResults 0 results).1 :=
                        sortResults_mem.mpr (List.mem_of_getElem? listed)
                      rw [sorted] at member
                      exact member
                    · rw [staged.access, staged.names]
                      exact beside
                | error error =>
                    rw [came] at listed
                    rcases settled.cleared primary (by rw [sorted]) plain index error listed slot
                        ⟨job, there, beside⟩ with absent | untouched
                    · exact .inl (told.2.absent taken absent)
                    · exact .inr (untouched.trans (told.2.rest slot taken))

end

/-! ### The journal -/

/-- The journal has one name, and nothing but the journal changed. -/
structure Logs (journal : Slot) (base : World) (writer : Writer) (here : World) : Prop where
  single : Sole journal writer.file here
  aside : Aside (· = journal) base here

section

variable {crates : Crates T} {host : Host} {weather : Weather} {journal : Slot} {base here : World}
  {writer : Writer} {α : Type}

/-- From here the session only writes to its journal. -/
def LogsOnly (host : Host) (weather : Weather) (journal : Slot) (program : Journaled α) : Prop :=
  ∀ base writer here, Logs journal base writer here →
    (program.run.run writer).Meets (fsMachine host weather) (fun _ _ => True)
      (fun result finish => Logs journal base result.2 finish) here

theorem LogsOnly.bind {β : Type} {program : Journaled α} {after : α → Journaled β}
    (first : LogsOnly host weather journal program)
    (second : ∀ value, LogsOnly host weather journal (after value)) :
    LogsOnly host weather journal (program >>= after) := by
  intro base writer here logs
  rw [Task.meets_session_bind]
  refine (first base writer here logs).mono fun result finish kept => ?_
  obtain ⟨error | value, after⟩ := result
  · exact kept
  · exact second value base after finish kept

theorem logsOnly_result (result : Except WorktreeError α) :
    LogsOnly host weather journal (beside (liftWorktree result)) := by
  intro base writer here logs
  exact logs

theorem logsOnly_forM {β : Type} {items : List β} {body : β → Journaled PUnit}
    (round : ∀ item ∈ items, LogsOnly host weather journal (body item)) :
    LogsOnly host weather journal (items.forM body) := by
  induction items with
  | nil => exact fun base writer here logs => logs
  | cons item rest ih =>
      exact LogsOnly.bind (round item List.mem_cons_self) fun _ =>
        ih fun other among => round other (List.mem_cons_of_mem _ among)

theorem Logs.scribbles {ρ : Type} {op : FsOp ρ} {answer : ρ} {finish : World}
    (logs : Logs journal base writer here) (scribbles : Scribbles writer.file op)
    (stepped : (fsMachine host weather).step op here answer finish) :
    Logs journal base writer finish := by
  obtain ⟨aside, single⟩ := aside_scribbles scribbles logs.single stepped
  exact ⟨single, logs.aside.trans aside⟩

theorem append_logsOnly (record : Record) (wrap : JournalError → WorktreeError) :
    LogsOnly host weather journal (appendOr crates record wrap) := by
  intro base writer here logs
  unfold appendOr
  rw [ExceptT.run_adapt, StateT.run_map, Task.meets_map]
  rw [Task.meets_session_bind]
  have kept : ((Writer.append crates record).run.run writer).Meets (fsMachine host weather)
      (fun _ _ => True) (fun result finish => result.2.file = writer.file ∧
        Logs journal base writer finish) here :=
    append_keeps_file (fun logs scribbles stepped => logs.scribbles scribbles stepped) record logs
  have appended : ((Writer.append crates record).run.run writer).Meets (fsMachine host weather)
      (fun _ _ => True) (fun result finish => Logs journal base result.2 finish) here :=
    kept.mono fun result finish ended => ⟨ended.1 ▸ ended.2.single, ended.2.aside⟩
  refine appended.mono fun result finish kept => ?_
  obtain ⟨error | value, after⟩ := result
  · exact kept
  · exact kept

theorem appendOperations_logsOnly (index : Nat) (operations : List OperationChange) :
    LogsOnly host weather journal (appendOperations crates index operations) := by
  induction operations generalizing index with
  | nil => exact fun base writer here logs => logs
  | cons operation rest ih =>
      unfold appendOperations
      exact LogsOnly.bind (logsOnly_result _) fun record =>
        LogsOnly.bind (append_logsOnly record _) fun _ => ih (index + 1)

theorem appendIntents_logsOnly (jobs : List (StageJob T)) :
    LogsOnly host weather journal (appendIntents crates jobs) :=
  logsOnly_forM fun job _ => append_logsOnly (pathIntent job) _

theorem appendStaged_logsOnly (paths : List StagedPath) :
    LogsOnly host weather journal (appendStaged crates paths) :=
  logsOnly_forM fun path _ => append_logsOnly (pathStaged path) _

theorem appendStaged_signals (paths : List StagedPath) :
    Task.Signals (appendStaged crates paths) WorktreeError.Flagged :=
  Task.signals_forM fun _ _ => Logbook.append_signals fun _ => rfl

/-! ### Giving the journal up -/

variable {control : ControlDir} {name : String}

/-- A journal that is there is found, unless the call fails. -/
theorem openNamedJournal_there (there : (here.look (host.slot control.dir name)).isSome = true) :
    (control.openNamedJournal name).run.Meets (fsMachine host weather) (fun _ _ => True)
      (fun result finish => finish = here ∧ ∀ found, result = .ok found → found.isSome = true)
      here := by
  unfold ControlDir.openNamedJournal attempt
  rw [Task.meets_except_bind, Task.meets_except_lift]
  refine ⟨trivial, fun answer finish stepped => ?_⟩
  have same := (quiet_openReadWrite control.dir name here).2 answer finish stepped
  subst same
  cases answer with
  | ok file =>
      refine ⟨rfl, fun found came => ?_⟩
      cases came
      rfl
  | error error =>
      have other : error.kind ≠ .notFound := by
        intro missing
        rcases stepped with executed | ⟨_, _, came, _, denies⟩
        · obtain ⟨seen, shows⟩ := Option.isSome_iff_exists.mp there
          simp only [FsCall.exec, FsCall.execOpen, shows] at executed
          cases kind : seen.inode.kind with
          | file =>
              rw [kind] at executed
              cases executed
          | directory =>
              rw [kind] at executed
              cases executed
              cases missing
          | symlink =>
              rw [kind] at executed
              cases executed
              cases missing
        · cases came
          rcases denies missing with absent | ⟨_, removal⟩
          · exact absent there
          · exact removal
      change Task.Meets _ _ (ExceptT.run
        (if error.kind = .notFound then pure none else throw error : Io (Option Ino))) _ finish
      rw [if_neg other]
      refine ⟨rfl, fun found came => ?_⟩
      cases came

theorem removeNamedJournal_clears :
    (control.removeNamedJournal operationJournal).run.Meets
      ((fsMachine host weather).without (CallMishap host)) (fun _ _ => True)
      (fun result finish => Aside (· = host.slot control.dir operationJournal) here finish ∧
        (result = .ok () →
          finish.table.lookup (host.slot control.dir operationJournal) = none)) here := by
  unfold ControlDir.removeNamedJournal attempt
  rw [Task.meets_except_bind, Task.meets_except_lift]
  refine ⟨trivial, fun answer finish stepped => ?_⟩
  obtain ⟨stepped, heeded⟩ := stepped
  obtain ⟨aside, _, clears⟩ := aside_removeFile stepped
  cases answer with
  | ok value =>
      refine ⟨trivial, fun answer last synced => ?_⟩
      have same := (quiet_syncDir control.dir finish).2 answer last synced.1
      subst same
      exact ⟨aside, fun _ => clears rfl⟩
  | error error =>
      change Task.Meets _ _ (ExceptT.run
        (if error.kind = .notFound then pure () else throw error : Io Unit)) _ finish
      by_cases missing : error.kind = .notFound
      · rw [if_pos missing]
        refine ⟨aside, fun _ => ?_⟩
        have unseen : finish.look (host.slot control.dir operationJournal) = none := by
          cases shows : finish.look (host.slot control.dir operationJournal) with
          | none => rfl
          | some seen => exact absurd ⟨rfl, missing, by rw [shows]; rfl⟩ heeded
        exact Option.map_eq_none_iff.mp unseen
      · rw [if_neg missing]
        refine ⟨aside, fun impossible => ?_⟩
        cases impossible

theorem removeOperationJournal_clears
    (there : (here.look (host.slot control.dir operationJournal)).isSome = true) :
    control.removeOperationJournal.run.Meets
      ((fsMachine host weather).without (CallMishap host)) (fun _ _ => True)
      (fun result finish => Aside (· = host.slot control.dir operationJournal) here finish ∧
        (result = .ok () →
          finish.table.lookup (host.slot control.dir operationJournal) = none)) here := by
  unfold ControlDir.removeOperationJournal
  rw [Task.meets_except_bind]
  refine (Task.Meets.without (openNamedJournal_there there)).mono fun current middle found => ?_
  obtain ⟨rfl, found⟩ := found
  cases current with
  | error error =>
      refine ⟨Aside.refl _ _, fun impossible => ?_⟩
      cases impossible
  | ok current =>
      obtain ⟨file, rfl⟩ := Option.isSome_iff_exists.mp (found current rfl)
      dsimp only
      rw [Task.meets_except_bind]
      refine (Task.Meets.without (meets_of_yields (Reads.yields
        (ControlDir.openNamedJournal_reads _)) fun _ _ => trivial)).mono fun legacy last found => ?_
      obtain ⟨rfl, _⟩ := found
      cases legacy with
      | error error =>
          refine ⟨Aside.refl _ _, fun impossible => ?_⟩
          cases impossible
      | ok legacy =>
          cases legacy with
          | none => exact removeNamedJournal_clears
          | some other =>
              refine ⟨Aside.refl _ _, fun impossible => ?_⟩
              cases impossible

theorem Sole.there {slot : Slot} {file : Ino} (single : Sole slot file here) :
    (here.look slot).isSome = true := by
  unfold World.look
  rw [single.named]
  rfl

/-- Either the journal is gone, or the error asks for a recovery. -/
theorem finishFailedPrepare_leaves
    (logs : Logs (host.slot control.dir operationJournal) base writer here) :
    ((finishFailedPrepare crates control).run.run writer).Meets
      ((fsMachine host weather).without (CallMishap host)) (fun _ _ => True)
      (fun result finish => Aside (· = host.slot control.dir operationJournal) base finish ∧
        match result.1 with
        | .ok _ => finish.table.lookup (host.slot control.dir operationJournal) = none
        | .error error => error.Flagged) here := by
  unfold finishFailedPrepare
  rw [Task.meets_session_bind]
  have signals : Task.Signals (appendOr crates (.finished .aborted) fun error =>
      (operationJournalError .cleanup "failed to record aborted operation preparation"
        error).requiringRecovery) WorktreeError.Flagged := Logbook.append_signals fun _ => rfl
  refine (Task.Meets.without ((append_logsOnly (.finished .aborted) _ base writer here logs).and
    ((signals writer).meets here))).mono fun result middle ended => ?_
  obtain ⟨error | value, after⟩ := result
  · exact ⟨ended.1.aside, ended.2 error rfl⟩
  · have there := ended.1.single.there
    dsimp only
    unfold beside orElse
    rw [Task.meets_session_lift, Task.meets_except_adapt]
    refine (removeOperationJournal_clears there).mono fun result finish cleared => ?_
    refine ⟨ended.1.aside.trans cleared.1, ?_⟩
    cases result with
    | ok value => exact cleared.2 rfl
    | error error => rfl

end

/-! ### Preparing with the journal open -/

/-- What staging left, with the journal still under its one name. -/
structure Reached (host : Host) (jobs : List (StageJob T)) (journal : Slot) (start : World)
    (writer : Writer) (here : World) : Prop where
  single : Sole journal writer.file here
  aside : Aside (fun slot => PoolSlots host jobs slot ∨ slot = journal) start here

section

variable {crates : Crates T} {host : Host} {weather : Weather} {options : WorktreeOptions}
  {journal : Slot} {start here : World} {writer : Writer} {jobs : List (StageJob T)} {α : Type}

theorem planning_meets {program : Journaled α}
    {post : Except WorktreeError α × Writer → World → Prop}
    (meets : (program.run.run writer).Meets ((fsMachine host weather).without (CallMishap host))
      (fun _ _ => True) post here) :
    (program.planning.run.run writer).Meets (mindful host weather panics) (fun _ _ => True)
      post here := by
  change ((program.run.run writer).phase).Meets _ _ _ _
  exact Task.Meets.phase meets fun op here answer finish stepped => stepped

theorem Logs.reached {base : World} (logs : Logs journal base writer here) :
    Reached host jobs journal base writer here :=
  ⟨logs.single, logs.aside.mono fun _ same => .inr same⟩

theorem Logs.cleared {base : World} (logs : Logs journal base writer here)
    (apart : ∀ slot, PoolSlots host jobs slot → slot ≠ journal) : Cleared host jobs base here :=
  fun slot among => .inr (logs.aside.rest slot (apart slot among))

/-- What was cleared since the journal was begun was cleared since the start. -/
theorem Cleared.since {base : World} (cleared : Cleared host jobs base here)
    (aside : Aside (· = journal) start base)
    (apart : ∀ slot, PoolSlots host jobs slot → slot ≠ journal) : Cleared host jobs start here :=
  fun slot among => (cleared slot among).imp_right fun untouched =>
    (aside.rest slot (apart slot among)).trans untouched

theorem stageAll_leaves {id : String} (valid : isValidId id = true) {projected : ProjectedPlan T}
    (panics : Nat → Option (Nat × Payload)) (logs : Logs journal start writer here)
    (made : jobs = projected.paths.map (stageJob id))
    (artifacts : ∀ index slot, JobSlots host jobs index slot → ArtifactOf host id index slot)
    (apart : ∀ slot, PoolSlots host jobs slot → slot ≠ journal) :
    ((stageAll crates panics projected id options).run.run writer).Meets
      (mindful host weather panics)
      (fun _ _ => True)
      (fun result finish => Reached host jobs journal start result.2 finish ∧ match result.1 with
        | .ok (_, operations, paths) =>
            operations = projected.operations ∧ paths.length = projected.paths.length
        | .error error =>
            error.recoveryRequired = false → Cleared host jobs start finish) here := by
  unfold stageAll
  rw [Task.meets_session_bind]
  refine (planning_meets (Task.Meets.without (appendOperations_logsOnly 0 projected.operations
    start writer here logs))).mono fun result middle logs => ?_
  obtain ⟨error | _, writer⟩ := result
  · exact ⟨logs.reached, fun _ => logs.cleared apart⟩
  dsimp only
  rw [← made, Task.meets_session_bind]
  refine (planning_meets (Task.Meets.without (appendIntents_logsOnly jobs start writer middle
    logs))).mono fun result base logs => ?_
  obtain ⟨error | _, writer⟩ := result
  · exact ⟨logs.reached, fun _ => logs.cleared apart⟩
  dsimp only
  rw [Task.meets_session_bind, Task.meets_session_task]
  have shaped : ∀ (index : Nat) (job : StageJob T), jobs[index]? = some job →
      ∃ path, job = stageJob id path := by
    intro index job found
    rw [made, List.getElem?_map] at found
    obtain ⟨path, _, rfl⟩ := Option.map_eq_some_iff.mp found
    exact ⟨path, rfl⟩
  refine (stageJobs_settles valid panics _ shaped artifacts).mono fun results pooled settled => ?_
  dsimp only
  rw [Task.meets_session_bind]
  have collected : ((beside (collectStaged results)).run.run writer).Meets
      ((fsMachine host weather).without (CallMishap host)) (fun _ _ => True)
      (fun result finish => result.2 = writer ∧ Aside (PoolSlots host jobs) base finish ∧
        match result.1 with
        | .ok paths => paths.length = jobs.length
        | .error error => error.recoveryRequired = false → Cleared host jobs base finish)
      pooled := by
    unfold beside
    rw [Task.meets_session_lift]
    exact (Task.Meets.without (collectStaged_meets settled)).mono fun result finish told =>
      ⟨rfl, told.1, told.2⟩
  refine (planning_meets collected).mono fun result finish told => ?_
  obtain ⟨outcome, after⟩ := result
  obtain ⟨same, aside, told⟩ := told
  dsimp only at same told
  subst same
  have outside : ¬ PoolSlots host jobs journal := fun among => apart journal among rfl
  have reached : Reached host jobs journal start after finish :=
    ⟨aside.sole journal after.file outside logs.single,
      (logs.aside.mono fun _ same => .inr same).trans (aside.mono fun _ among => .inl among)⟩
  cases outcome with
  | error error => exact ⟨reached, fun plain => (told plain).since logs.aside apart⟩
  | ok paths =>
      dsimp only
      rw [Task.meets_session_bind]
      have again : Logs journal finish after finish := ⟨reached.single, Aside.refl _ finish⟩
      refine (planning_meets (Task.Meets.without
        ((appendStaged_logsOnly paths finish after finish again).and
          ((appendStaged_signals paths after).meets finish)))).mono fun result last ended => ?_
      obtain ⟨logged, flagged⟩ := ended
      have standing : Reached host jobs journal start result.2 last :=
        ⟨logged.single, reached.aside.trans (logged.aside.mono fun _ same => .inr same)⟩
      obtain ⟨error | _, last⟩ := result
      · refine ⟨standing, fun plain => ?_⟩
        have flagged : error.recoveryRequired = true := flagged error rfl
        rw [plain] at flagged
        cases flagged
      · refine ⟨standing, rfl, ?_⟩
        rw [told, made, List.length_map]

end

/-! ### What a failed preparation leaves -/

/-- No entry but those of the journal and of the artifacts is disturbed. Without
the flag none of them is left that was not there; what is left of the artifacts
comes with the flag and with the journal. -/
structure Leaves (host : Host) (journal : Slot) (id : String) (start : World)
    (error : WorktreeError) (finish : World) : Prop where
  frame : ∀ slot, ¬ Artifact host id slot → slot ≠ journal → Undisturbed slot start finish
  clean : error.recoveryRequired = false → ∀ slot, Artifact host id slot ∨ slot = journal →
    finish.table.lookup slot = none ∨ Undisturbed slot start finish
  kept : ∀ slot, Artifact host id slot → finish.table.lookup slot ≠ none →
    ¬ Undisturbed slot start finish →
    error.recoveryRequired = true ∧ (finish.look journal).isSome = true

section

variable {crates : Crates T} {host : Host} {weather : Weather} {options : WorktreeOptions}
  {journal : Slot} {id : String} {start here finish : World} {writer : Writer}
  {jobs : List (StageJob T)} {error : WorktreeError}

theorem leaves_nothing (aside : Aside (· = journal) start finish)
    (apart : ∀ slot, Artifact host id slot → slot ≠ journal)
    (journaled : error.recoveryRequired = false →
      finish.table.lookup journal = none ∨ Undisturbed journal start finish) :
    Leaves host journal id start error finish := by
  refine ⟨fun slot _ other => aside.rest slot other, fun plain slot among => ?_,
    fun slot among left disturbed => absurd (aside.rest slot (apart slot among)) disturbed⟩
  rcases among with artifact | rfl
  · exact .inr (aside.rest slot (apart slot artifact))
  · exact journaled plain

theorem leaves_still (same : finish.table = start.table) (inodes : finish.inodes = start.inodes) :
    Leaves host journal id start error finish := by
  have untouched : ∀ slot, Undisturbed slot start finish :=
    fun slot => ⟨by rw [same], fun ino _ => by rw [inodes]⟩
  exact ⟨fun slot _ _ => untouched slot, fun _ slot _ => .inr (untouched slot),
    fun slot _ _ disturbed => absurd (untouched slot) disturbed⟩

theorem Reached.leaves_flagged (reached : Reached host jobs journal start writer finish)
    (artifacts : ∀ slot, PoolSlots host jobs slot → Artifact host id slot)
    (flagged : error.recoveryRequired = true) : Leaves host journal id start error finish := by
  refine ⟨fun slot foreign other => reached.aside.rest slot fun among => ?_, fun plain => ?_,
    fun slot _ _ _ => ⟨flagged, reached.single.there⟩⟩
  · rcases among with pool | same
    · exact foreign (artifacts slot pool)
    · exact other same
  · rw [plain] at flagged
    cases flagged

theorem Cleared.leaves (cleared : Cleared host jobs start here)
    (before : Aside (fun slot => PoolSlots host jobs slot ∨ slot = journal) start here)
    (after : Aside (· = journal) here finish)
    (artifacts : ∀ slot, PoolSlots host jobs slot → Artifact host id slot)
    (apart : ∀ slot, Artifact host id slot → slot ≠ journal)
    (journaled : error.recoveryRequired = false → finish.table.lookup journal = none) :
    Leaves host journal id start error finish := by
  have each : ∀ slot, Artifact host id slot →
      finish.table.lookup slot = none ∨ Undisturbed slot start finish := by
    intro slot among
    have quiet := after.rest slot (apart slot among)
    by_cases pool : PoolSlots host jobs slot
    · rcases cleared slot pool with absent | untouched
      · exact .inl (quiet.entry.trans absent)
      · exact .inr (untouched.trans quiet)
    · refine .inr (Undisturbed.trans (before.rest slot fun taken => ?_) quiet)
      rcases taken with inside | same
      · exact pool inside
      · exact apart slot among same
  refine ⟨fun slot foreign other => ?_, fun plain slot among => ?_,
    fun slot among left disturbed => ?_⟩
  · refine (before.rest slot fun taken => ?_).trans (after.rest slot other)
    rcases taken with inside | same
    · exact foreign (artifacts slot inside)
    · exact other same
  · rcases among with artifact | rfl
    · exact each slot artifact
    · exact .inl (journaled plain)
  · rcases each slot among with absent | untouched
    · exact absurd absent left
    · exact absurd untouched disturbed

theorem Leaves.inTransaction (leaves : Leaves host journal id start error finish) (name : String) :
    Leaves host journal id start (error.inTransaction name) finish :=
  ⟨leaves.frame, leaves.clean, leaves.kept⟩

theorem toU32_fits {value : Nat} (fits : value ≤ u32Max) : toU32 value = some value :=
  if_pos fits

theorem appendHeader_signals {plan : WorktreePlan T} {fingerprint : Sha256Hash} {count : Nat}
    (operations : plan.operations.length ≤ u32Max) (paths : count ≤ u32Max) :
    Task.Signals (appendHeader crates plan fingerprint id count) WorktreeError.Flagged := by
  unfold appendHeader
  rw [toU32_fits operations, toU32_fits paths]
  refine Task.Signals.bind ?_ fun _ => Task.Signals.bind ?_ fun _ => ?_
  · intro own error impossible
    cases impossible
  · intro own error impossible
    cases impossible
  · exact Logbook.append_signals fun _ => rfl

theorem appendPrepared_signals {first second : Nat} (operations : first ≤ u32Max)
    (paths : second ≤ u32Max) :
    Task.Signals (appendPrepared crates first second) WorktreeError.Flagged := by
  unfold appendPrepared
  rw [toU32_fits operations, toU32_fits paths]
  refine Task.Signals.bind ?_ fun _ => Task.Signals.bind ?_ fun _ => ?_
  · intro own error impossible
    cases impossible
  · intro own error impossible
    cases impossible
  · exact Logbook.append_signals fun _ => rfl

variable {control : ControlDir} {projected : ProjectedPlan T}

theorem stageOrAbort_leaves (valid : isValidId id = true) (panics : Nat → Option (Nat × Payload))
    (logs : Logs (host.slot control.dir operationJournal) start writer here)
    (made : jobs = projected.paths.map (stageJob id))
    (artifacts : ∀ index slot, JobSlots host jobs index slot → ArtifactOf host id index slot)
    (apart : ∀ slot, Artifact host id slot → slot ≠ host.slot control.dir operationJournal) :
    ((stageOrAbort crates panics control projected id options).run.run writer).Meets
      (mindful host weather panics) (fun _ _ => True)
      (fun result finish => match result.1 with
        | .ok (_, operations, paths) =>
            Reached host jobs (host.slot control.dir operationJournal) start result.2 finish ∧
              operations = projected.operations ∧ paths.length = projected.paths.length
        | .error error =>
            Leaves host (host.slot control.dir operationJournal) id start error finish) here := by
  have pooled : ∀ slot, PoolSlots host jobs slot → Artifact host id slot := by
    intro slot among
    obtain ⟨index, mine⟩ := among
    exact ⟨index, artifacts index slot mine⟩
  unfold stageOrAbort
  rw [Task.meets_session_bind, ExceptT.run_lift, StateT.run_map, Task.meets_map]
  refine (stageAll_leaves valid panics logs made artifacts
    fun slot among => apart slot (pooled slot among)).mono fun result middle told => ?_
  obtain ⟨outcome, after⟩ := result
  obtain ⟨reached, told⟩ := told
  cases outcome with
  | ok value => exact ⟨reached, told⟩
  | error error =>
      dsimp only at told ⊢
      by_cases flagged : error.recoveryRequired = true
      · change Task.Meets _ _ (StateT.run (ExceptT.run (if error.recoveryRequired = true then _
          else _)) _) _ _
        rw [if_pos flagged]
        exact (reached.leaves_flagged pooled flagged).inTransaction id
      · change Task.Meets _ _ (StateT.run (ExceptT.run (if error.recoveryRequired = true then _
          else _)) _) _ _
        rw [if_neg flagged]
        have plain : error.recoveryRequired = false := (Bool.not_eq_true _).mp flagged
        rw [Task.meets_session_bind]
        have again : Logs (host.slot control.dir operationJournal) middle after middle :=
          ⟨reached.single, Aside.refl _ middle⟩
        refine (planning_meets (finishFailedPrepare_leaves again)).mono
          fun result finish ended => ?_
        obtain ⟨aside, ended⟩ := ended
        obtain ⟨found | _, last⟩ := result
        · refine (told plain).leaves reached.aside aside pooled apart fun unset => ?_
          have flagged : found.recoveryRequired = true := ended
          rw [unset] at flagged
          cases flagged
        · exact ((told plain).leaves reached.aside aside pooled apart fun _ =>
            ended).inTransaction id

theorem prepareJournaled_leaves {plan : WorktreePlan T} {fingerprint : Sha256Hash} {root : FsRoot}
    (valid : isValidId id = true) (panics : Nat → Option (Nat × Payload))
    (logs : Logs (host.slot control.dir operationJournal) start writer here)
    (made : jobs = projected.paths.map (stageJob id))
    (artifacts : ∀ index slot, JobSlots host jobs index slot → ArtifactOf host id index slot)
    (apart : ∀ slot, Artifact host id slot → slot ≠ host.slot control.dir operationJournal)
    (counted : projected.operations.length = plan.operations.length)
    (operations : plan.operations.length ≤ u32Max) (paths : projected.paths.length ≤ u32Max) :
    ((prepareJournaled crates panics plan fingerprint root control projected id
        options).run.run writer).Meets (mindful host weather panics) (fun _ _ => True)
      (fun result finish => ∀ error, result.1 = .error error →
        Leaves host (host.slot control.dir operationJournal) id start error finish) here := by
  have pooled : ∀ slot, PoolSlots host jobs slot → Artifact host id slot := by
    intro slot among
    obtain ⟨index, mine⟩ := among
    exact ⟨index, artifacts index slot mine⟩
  have appended : LogsOnly host weather (host.slot control.dir operationJournal)
      (appendHeader crates plan fingerprint id projected.paths.length) :=
    LogsOnly.bind (logsOnly_result _) fun _ => LogsOnly.bind (logsOnly_result _) fun _ =>
      append_logsOnly _ _
  have headed := (appended start writer here logs).and
    ((appendHeader_signals operations paths writer).meets here)
  unfold prepareJournaled
  rw [Task.meets_session_bind]
  refine (planning_meets (Task.Meets.without headed)).mono fun result middle ended => ?_
  obtain ⟨error | _, after⟩ := result
  · intro found same
    cases same
    have reached : Reached host jobs _ start after middle := ended.1.reached
    exact reached.leaves_flagged pooled (ended.2 error rfl)
  dsimp only
  rw [Task.meets_session_bind]
  refine (stageOrAbort_leaves valid panics ended.1 made artifacts apart).mono
    fun result staged told => ?_
  obtain ⟨error | ⟨operation, listed, done⟩, after⟩ := result
  · intro found same
    cases same
    exact told
  obtain ⟨reached, same, length⟩ := told
  dsimp only
  have again : Logs (host.slot control.dir operationJournal) staged after staged :=
    ⟨reached.single, Aside.refl _ staged⟩
  have prepared : LogsOnly host weather (host.slot control.dir operationJournal)
      (appendPrepared crates listed.length done.length) :=
    LogsOnly.bind (logsOnly_result _) fun _ => LogsOnly.bind (logsOnly_result _) fun _ =>
      append_logsOnly _ _
  have fits : listed.length ≤ u32Max := by
    rw [same, counted]
    exact operations
  have within : done.length ≤ u32Max := by
    rw [length]
    exact paths
  have signals : Task.Signals (appendPrepared crates listed.length done.length)
      WorktreeError.Flagged := appendPrepared_signals fits within
  rw [Task.meets_session_bind]
  refine (planning_meets (Task.Meets.without ((prepared staged after staged again).and
    ((signals after).meets staged)))).mono fun result last ended => ?_
  have standing : Reached host jobs (host.slot control.dir operationJournal) start result.2 last :=
    ⟨ended.1.single, reached.aside.trans (ended.1.aside.mono fun _ same => .inr same)⟩
  obtain ⟨error | _, after⟩ := result
  · intro found same
    cases same
    exact standing.leaves_flagged pooled (ended.2 error rfl)
  dsimp only
  rw [Task.meets_session_bind]
  have cloned : ((beside (orElse (perform (.cloneHandle root.dir)) fun error =>
      (WorktreeError.withSource .io .prepare "failed to retain the worktree root capability"
        error.message).requiringRecovery)).run.run after).Meets
      ((fsMachine host weather).without (CallMishap host)) (fun _ _ => True)
      (fun result finish => finish = last ∧ result.2 = after ∧
        ∀ error, result.1 = .error error → error.recoveryRequired = true) last := by
    unfold beside orElse
    rw [Task.meets_session_lift, Task.meets_except_adapt]
    refine ⟨trivial, fun answer finish stepped => ?_⟩
    have same := (quiet_cloneHandle root.dir last).2 answer finish stepped.1
    subst same
    refine ⟨rfl, rfl, fun error came => ?_⟩
    cases answer with
    | ok value => cases came
    | error source =>
        cases came
        rfl
  refine (planning_meets cloned).mono fun result finish told => ?_
  obtain ⟨outcome, after⟩ := result
  obtain ⟨rfl, same, flagged⟩ := told
  cases outcome with
  | error error =>
      intro found came
      cases came
      exact standing.leaves_flagged pooled (flagged error rfl)
  | ok value =>
      intro found came
      cases came

/-- The journal is created with one name, or not at all, or the error says so. -/
theorem createWriter_leaves :
    (createWriter control options).run.Meets ((fsMachine host weather).without (CallMishap host))
      (fun _ _ => True)
      (fun result finish => Aside (· = host.slot control.dir operationJournal) start finish ∧
        match result with
        | .ok writer => Logs (host.slot control.dir operationJournal) start writer finish
        | .error error => error.recoveryRequired = false →
            finish.table.lookup (host.slot control.dir operationJournal) = none) start := by
  unfold createWriter
  rw [Task.meets_except_bind]
  unfold orElse
  rw [Task.meets_except_adapt]
  refine ⟨trivial, fun answer here stepped => ?_⟩
  obtain ⟨stepped, heeded⟩ := stepped
  obtain ⟨aside, empty⟩ := aside_createNew stepped
  have sole := fun file same => (empty file same).sole
  cases answer with
  | error error =>
      refine ⟨aside, fun _ => ?_⟩
      have unseen : here.look (host.slot control.dir operationJournal) = none := by
        cases shows : here.look (host.slot control.dir operationJournal) with
        | none => rfl
        | some seen => exact absurd ⟨rfl, by rw [shows]; rfl⟩ heeded
      exact Option.map_eq_none_iff.mp unseen
  | ok file =>
      have single := sole file rfl
      rw [Task.meets_done]
      dsimp only [Except.mapError]
      rw [Task.meets_except_bind, Task.meets_except_adapt]
      refine ⟨trivial, fun answer last synced => ?_⟩
      have same := (quiet_syncDir control.dir here).2 answer last synced.1
      subst same
      cases answer with
      | error error =>
          refine ⟨aside, fun impossible => ?_⟩
          cases impossible
      | ok value =>
          rw [Task.meets_done]
          dsimp only [Except.mapError]
          unfold orJournal
          rw [Task.meets_except_adapt]
          have fresh : Reads host weather (Writer.new file options.limits.maxJournalBytes)
              fun writer => writer.file = file := by
            unfold Writer.new
            refine Task.Yields.bind (Task.yields_result _ fun _ _ => trivial) fun _ _ => ?_
            refine Task.Yields.bind (Task.yields_adapt (yields_quiet (quiet_metadata file)))
              fun metadata _ => ?_
            exact yields_check fun _ => Task.yields_pure _ rfl
          refine (Task.Meets.without (fresh.meets fun _ _ => trivial)).mono
            fun result finish told => ?_
          obtain ⟨rfl, told⟩ := told
          cases result with
          | error error =>
              refine ⟨aside, fun impossible => ?_⟩
              cases impossible
          | ok writer =>
              refine ⟨aside, ?_, aside⟩
              rw [told writer rfl]
              exact single

theorem action_planning_meets {α : Type} {program : Action α}
    {post : Except WorktreeError α → World → Prop}
    (meets : program.run.Meets ((fsMachine host weather).without (CallMishap host))
      (fun _ _ => True) post here) :
    program.planning.run.Meets (mindful host weather panics) (fun _ _ => True) post here := by
  change (program.run.phase).Meets _ _ _ _
  exact Task.Meets.phase meets fun op here answer finish stepped => stepped

theorem aside_still {own : Slot → Prop} (same : finish.table = start.table)
    (inodes : finish.inodes = start.inodes) : Aside own start finish := by
  refine ⟨fun slot _ => ⟨by rw [same], fun ino _ => by rw [inodes]⟩, fun slot file _ single => ?_⟩
  exact ⟨by rw [same]; exact single.named, fun other named => single.only other (same ▸ named)⟩

theorem artifact_ne_journal (valid : isValidId id = true) (dir : Ino) {slot : Slot}
    (artifact : Artifact host id slot) : slot ≠ host.slot dir operationJournal := by
  obtain ⟨index, parent, suffix, kind, rfl⟩ := artifact
  have place : host.slot dir operationJournal = ⟨dir, operationJournal⟩ := slot_of_own rfl
  rw [slot_artifact valid parent index kind, place]
  intro same
  have name := congrArg (fun slot : Slot => slot.name.toList.head?) same
  simp [artifactName, artifactPrefix, operationJournal] at name

/-- Whatever fails in a preparation, and whichever of its jobs panic: in a run
without mishaps an error without the flag leaves nothing behind, and what is left
of the artifacts comes with the flag and the journal. -/
theorem prepareLocked_leaves (host : Host) (weather : Weather) (crates : Crates T)
    (options : WorktreeOptions) (root : FsRoot) (plan : WorktreePlan T) (fingerprint : Sha256Hash)
    (locked : TransactionLock) (panics : Nat → Option (Nat × Payload)) (start finish : World)
    (error : WorktreeError) (operations : plan.operations.length ≤ u32Max)
    (paths : ∀ transitions, compilePlan crates plan = .ok transitions →
      transitions.length ≤ u32Max)
    (returned : (prepareLocked crates panics root options plan fingerprint locked).run.Returns
      (mindful host weather panics) start (.error error) finish) :
    ∃ id, Leaves host (host.slot locked.control.dir operationJournal) id start error finish := by
  have meets : (prepareLocked crates panics root options plan fingerprint locked).run.Meets
      (mindful host weather panics) (fun _ _ => True) (fun result finish => ∀ error,
        result = .error error → ∃ id, Leaves host
          (host.slot locked.control.dir operationJournal) id start error finish) start := by
    unfold prepareLocked
    rw [Task.meets_except_bind]
    refine (action_planning_meets (Task.Meets.without (Undo.ensureNoPending_reads.meets
      fun _ _ => trivial))).mono fun result here told => ?_
    obtain ⟨rfl, _⟩ := told
    cases result with
    | error error => exact fun found _ => ⟨"", leaves_still rfl rfl⟩
    | ok value =>
        dsimp only
        rw [Task.meets_except_bind]
        refine (Task.Meets.machine_mono (project_meets plan)
          fun op here answer finish stepped => mindful_step stepped).mono fun result here told => ?_
        obtain ⟨rfl, told⟩ := told
        cases result with
        | error error => exact fun found _ => ⟨"", leaves_still rfl rfl⟩
        | ok projected =>
            have projects := told projected rfl
            have fits : projected.paths.length ≤ u32Max := by
              obtain ⟨transitions, _, _, compiled, _⟩ := projects.assembled
              rw [projects.paths_length compiled]
              exact paths transitions compiled
            dsimp only
            rw [Task.meets_except_bind]
            refine (action_planning_meets (Task.Meets.without (randomId_draws _))).mono
              fun result drawn same => ?_
            cases result with
            | error error => exact fun found _ => ⟨"", leaves_still same.1 same.2.1⟩
            | ok id =>
                have valid : isValidId id = true := same.2.2 id rfl
                dsimp only
                rw [Task.meets_except_bind]
                refine (action_planning_meets createWriter_leaves).mono fun result made told => ?_
                have aside := (aside_still same.1 same.2.1).trans told.1
                have apart : ∀ slot, Artifact host id slot →
                    slot ≠ host.slot locked.control.dir operationJournal :=
                  fun slot => artifact_ne_journal valid locked.control.dir
                cases result with
                | error error =>
                    intro found came
                    cases came
                    exact ⟨id, leaves_nothing aside apart fun plain => .inl (told.2 plain)⟩
                | ok writer =>
                    dsimp only
                    rw [Task.meets_except_bind, Task.meets_except_lift]
                    refine (prepareJournaled_leaves valid panics ⟨told.2.single, aside⟩ rfl
                      (fun index slot => JobSlots.artifact fun index path => projects.numbered)
                      apart projects.operations_length operations fits).mono
                      fun result finish left => ?_
                    obtain ⟨outcome, journal⟩ := result
                    dsimp only
                    rw [Task.meets_except_bind]
                    cases outcome with
                    | error error =>
                        intro found came
                        cases came
                        exact ⟨id, left error rfl⟩
                    | ok value =>
                        intro found came
                        cases came
  exact meets.returns returned error rfl

end

/-! ### A job that cannot clear its artifact -/

def bareWorld : World :=
  World.tree [(⟨0, ".weavatrix"⟩, 1), (⟨1, "worktree"⟩, 2), (⟨2, "lock"⟩, 3)] fun ino =>
    if ino ≤ 2 then ⟨.directory, 0, [], 0o755⟩ else ⟨.file, 0, [], 0o644⟩

def createPlan : WorktreePlan Unit := ⟨"create a", [.create ⟨"a", [], ⟨false⟩⟩]⟩

section Denied

/-- The file system neither sets a mode nor removes a file. -/
def denyingKernel : Kernel FsOp World where
  exec := fun op world => match op with
    | .io (.setPermissions _ _) => (.error ⟨.other, "Permission denied"⟩, world)
    | .io (.removeFile _ _) => (.error ⟨.other, "Permission denied"⟩, world)
    | op => (fsKernel .plain).exec op world

theorem denyingKernel_step {ρ : Type} (op : FsOp ρ) (start : World) :
    (fsMachine .plain .stormy).step op start (denyingKernel.exec op start).1
      (denyingKernel.exec op start).2 := by
  cases op with
  | io call =>
      cases call with
      | setPermissions file mode =>
          refine .inr ⟨trivial, _, rfl, .inl rfl, fun impossible => ?_⟩
          cases impossible
      | removeFile dir name =>
          refine .inr ⟨trivial, _, rfl, .inl rfl, fun impossible => ?_⟩
          cases impossible
      | _ => exact .inl rfl
  | unlock file => rfl
  | refuseAppend => exact ⟨trivial, rfl⟩

/-- The journal is created where none is, and no pool has more than one job. -/
def heeded : {ρ : Type} → Phase FsOp ρ → World → Bool
  | _, .single (.io (.openFile dir name .createNew)), here =>
      (here.look (Host.plain.slot dir name)).isNone
  | _, .single _, _ => true
  | _, .spawn workers count _, _ => decide (0 < workers) && decide (count ≤ 1)

theorem mindful_heeded {ρ : Type} (op : Phase FsOp ρ) (start : World)
    (heeds : heeded op start = true) :
    (mindful .plain .stormy fun _ => none).step op start (denyingKernel.phased.exec op start).1
      (denyingKernel.phased.exec op start).2 := by
  cases op with
  | single op =>
      refine ⟨denyingKernel_step op start, fun mishap => ?_⟩
      cases op with
      | io call =>
          cases call with
          | removeFile dir name => cases mishap.2.1
          | openFile dir name mode =>
              cases mode with
              | createNew =>
                  have absent : start.look (Host.plain.slot dir name) = none :=
                    Option.isNone_iff_eq_none.mp heeds
                  have made : (denyingKernel.exec (.io (.openFile dir name .createNew)) start).1 =
                      .ok (start.nextFree start.spare).1 := by
                    change (FsCall.execOpen .plain start dir name .createNew).1 = _
                    unfold FsCall.execOpen
                    rw [absent]
                  change CallMishap .plain (.io (.openFile dir name .createNew)) start
                    (denyingKernel.exec (.io (.openFile dir name .createNew)) start).1 _ at mishap
                  rw [made] at mishap
                  exact mishap
              | _ => exact mishap
          | _ => exact mishap
      | _ => exact mishap
  | spawn workers count jobs =>
      obtain ⟨staffed, few⟩ := Bool.and_eq_true_iff.mp heeds
      have staffed : (Phase.spawn workers count jobs).manned = true := staffed
      have stepped := Kernel.phased_step denyingKernel_step staffed start
      refine ⟨Machine.watched_spawn_of stepped fun noted => hides_single ?_, id⟩
      have few : count ≤ 1 := of_decide_eq_true few
      change ((List.range count).map _).length ≤ 1
      rw [List.length_map, List.length_range]
      exact few

@[irreducible] private def deniedPrepare : Planning PreparedWorktreeTransaction :=
  prepareLocked plainCrates (fun _ => none) ⟨0, 0⟩ plainOptions createPlan (Sha256.digest [])
    ⟨⟨2, 0⟩, 3⟩

/-- How the preparation ends there. -/
def deniedEnd : Except WorktreeError PreparedWorktreeTransaction × World :=
  deniedPrepare.run.phasedRun denyingKernel bareWorld

/-- A staging job whose artifact cannot be removed: it is left with the flag and the
journal. -/
theorem prepareLocked_leaves_denied :
    ∃ error, deniedEnd.1 = .error error ∧ error.recoveryRequired = true ∧
      (deniedEnd.2.look ⟨0, artifactName "00000000000000000000000000000000" 0 "stage"⟩).isSome =
        true ∧
      ∃ id, Leaves .plain (Host.plain.slot 2 operationJournal) id bareWorld error deniedEnd.2 := by
  have heeds : deniedPrepare.run.passes denyingKernel.phased heeded bareWorld = true := by
    decide +kernel
  have ended : deniedEnd.1.isOk = false ∧
      (∀ flag, (deniedEnd.1.map fun _ => true).mapError WorktreeError.recoveryRequired =
        .error flag → flag = true) ∧
      (deniedEnd.2.look ⟨0, artifactName "00000000000000000000000000000000" 0 "stage"⟩).isSome =
        true := by
    decide +kernel
  obtain ⟨failing, flagged, left⟩ := ended
  have returned : deniedPrepare.run.Returns (mindful .plain .stormy fun _ => none) bareWorld
      deniedEnd.1 deniedEnd.2 :=
    Task.returns_of_passes mindful_heeded deniedPrepare.run bareWorld heeds
  cases failed : deniedEnd.1 with
  | ok transaction =>
      rw [failed] at failing
      cases failing
  | error error =>
      rw [failed] at returned flagged
      refine ⟨error, rfl, flagged _ rfl, left, ?_⟩
      refine prepareLocked_leaves .plain .stormy plainCrates plainOptions ⟨0, 0⟩ createPlan
        (Sha256.digest []) ⟨⟨2, 0⟩, 3⟩ (fun _ => none) bareWorld deniedEnd.2 error (by decide)
        (fun transitions compiles => ?_) ?_
      · have counted : (compilePlan plainCrates createPlan).toOption.map List.length = some 1 := by
          decide +kernel
        rw [compiles] at counted
        rw [Option.some_inj.mp counted]
        decide
      · unfold deniedPrepare at returned
        exact returned

end Denied

/-! ### A job that panics -/

section Panicked

/-- The job panics after its first call. -/
def firstCall : Nat → Option (Nat × Payload) := fun _ => some (1, .text "out of memory")

@[irreducible] private def panickedPrepare : Planning PreparedWorktreeTransaction :=
  prepareOperationPlan plainCrates firstCall ⟨0, 0⟩ plainOptions createPlan

private def panickedEnd : Except WorktreeError PreparedWorktreeTransaction × World :=
  panickedPrepare.run.phasedRun (fsKernel .plain) bareWorld

private def panickedStage : Slot :=
  ⟨0, artifactName "00000000000000000000000000000000" 0 "stage"⟩

/-- A staging job that panics leaves its artifact, and the error says nothing of it. -/
theorem panicked_left :
    ∃ error finish, (prepareOperationPlan plainCrates firstCall ⟨0, 0⟩ plainOptions
        createPlan).run.Returns (fsMachine .plain .calm).phased bareWorld (.error error) finish ∧
      error.recoveryRequired = false ∧ finish.look ⟨2, operationJournal⟩ = none ∧
      ∃ id slot, Artifact .plain id slot ∧ bareWorld.look slot = none ∧
        (finish.look slot).isSome = true := by
  have same : panickedPrepare = prepareOperationPlan plainCrates firstCall ⟨0, 0⟩ plainOptions
      createPlan := by
    unfold panickedPrepare
    rfl
  have some_worker : panickedPrepare.run.manned (fsKernel .plain) bareWorld = true := by
    decide +kernel
  have returned : panickedPrepare.run.Returns (fsMachine .plain .calm).phased bareWorld
      panickedEnd.1 panickedEnd.2 :=
    Task.returns_phasedRun (step_exec trivial) _ bareWorld some_worker
  have ended : panickedEnd.1.isOk = false ∧
      (∀ flag, (panickedEnd.1.map fun _ => true).mapError WorktreeError.recoveryRequired =
        .error flag → flag = false) ∧
      panickedEnd.2.look ⟨2, operationJournal⟩ = none ∧
      bareWorld.look panickedStage = none ∧ (panickedEnd.2.look panickedStage).isSome = true := by
    decide +kernel
  obtain ⟨failing, plain, dropped, fresh, left⟩ := ended
  rw [← same]
  cases failed : panickedEnd.1 with
  | ok transaction =>
      rw [failed] at failing
      cases failing
  | error error =>
      rw [failed] at returned plain
      exact ⟨error, panickedEnd.2, returned, plain _ rfl, dropped, _, panickedStage,
        ⟨0, 0, "stage", .inl rfl, rfl⟩, fresh, left⟩

end Panicked

end Worktree
