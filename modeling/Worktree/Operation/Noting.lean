import Worktree.CrashLogic.Notebook
import Worktree.CrashLogic.Outcome
import Worktree.Operation.Naming
/-
What a staging job notes of its calls.

The notes of a job tell whether it began to make artifacts and whether it was kept
from clearing them. Its error says as much, and a panic says nothing. A pool hides
an artifact when one of its jobs gave it up and the first failure, which is the one
that is returned, is of a job that did not say so.
-/

namespace Worktree

open CrashLogic

variable {T : Type}

/-- The names of the artifacts a job may create. -/
def StageJob.names (job : StageJob T) : List String :=
  job.stageName.toList ++ job.backupName.toList

/-! ### Notes -/

/-- How a call went, as far as the artifacts of a job are concerned. -/
inductive CallNote
  | creates
  | looks
  | removed
  | kept
  | unsynced
  | other
  deriving DecidableEq

def noteOf : {κ : Type} → FsOp κ → κ → CallNote
  | _, .io (.openFile _ _ .createNew), _ => .creates
  | _, .io (.symlinkMetadata _ _), .error error => if error.kind = .notFound then .other else .looks
  | _, .io (.symlinkMetadata _ _), .ok _ => .looks
  | _, .io (.removeFile _ _), .ok _ => .removed
  | _, .io (.removeFile _ _), .error _ => .kept
  | _, .io (.syncDir _), .error _ => .unsynced
  | _, _, _ => .other

/-- The first call was to create a file that was not there. No other jobs than those of
staging do that, and all of them that make artifacts. -/
def begun (notes : List CallNote) : Bool :=
  notes.getLast? = some .creates

/-- The job ended when it could not look at an artifact, would not remove what it saw
there, could not remove it, or could not sync the removal. -/
def stopped : List CallNote → Bool
  | .looks :: _ => true
  | .kept :: _ => true
  | .unsynced :: .removed :: _ => true
  | _ => false

/-- The job panicked after these calls. -/
def panicked (panic : Option (Nat × Payload)) (notes : List CallNote) : Bool :=
  panic.any fun after => after.1 = notes.length

/-- The job ended without clearing its artifacts. -/
def GivesUp (panic : Option (Nat × Payload)) (notes : List CallNote) : Prop :=
  begun notes = true ∧ (panicked panic notes = true ∨ stopped notes = true)

/-- The job gave its artifacts up, and its error says so. -/
def Tells (panic : Option (Nat × Payload)) (notes : List CallNote) : Prop :=
  begun notes = true ∧ panicked panic notes = false ∧ stopped notes = true

/-- The first of the jobs that failed. -/
structure FirstFails {ε ρ : Type} (answer : List (Option (Except ε ρ))) (index : Nat) : Prop where
  fails : ∃ error, answer[index]? = some (some (.error error))
  before : ∀ earlier, earlier < index → ∀ error,
    answer[earlier]? ≠ some (some (.error error))

theorem FirstFails.cons {ε ρ : Type} {head : Option (Except ε ρ)}
    {rest : List (Option (Except ε ρ))} {index : Nat} (first : FirstFails rest index)
    (fine : ∀ error, head ≠ some (.error error)) : FirstFails (head :: rest) (index + 1) := by
  refine ⟨first.fails, fun earlier bound error found => ?_⟩
  cases earlier with
  | zero => exact fine error (Option.some.inj found)
  | succ earlier => exact first.before earlier (by omega) error found

/-- A job of the pool gave its artifacts up, and the first failure does not tell. -/
def Hides (panics : Nat → Option (Nat × Payload)) {ε ρ : Type} (noted : Nat → List CallNote)
    (answer : List (Option (Except ε ρ))) : Prop :=
  (∃ first, FirstFails answer first ∧ ¬ Tells (panics first) (noted first)) ∧
    ∃ index, index < answer.length ∧ GivesUp (panics index) (noted index)

/-- A single job that does not panic hides nothing. -/
theorem hides_single {ε ρ : Type} {noted : Nat → List CallNote}
    {answer : List (Option (Except ε ρ))} (single : answer.length ≤ 1) :
    ¬ Hides (fun _ => none) noted answer := by
  rintro ⟨⟨first, failing, silent⟩, index, bound, begins, unwound | stops⟩
  · cases unwound
  · obtain ⟨error, found⟩ := failing.fails
    obtain ⟨within, _⟩ := List.getElem?_eq_some_iff.mp found
    have same : first = index := by omega
    subst same
    exact silent ⟨begins, rfl, stops⟩

/-! ### Clearing an artifact -/

section

variable {crates : Crates T} {options : WorktreeOptions} {access : TargetAccess} {id : String}
  {path : ProjectedPath T} {notes : List CallNote}

theorem removeArtifact_notes {name : String} (named : validateArtifactName name = .ok ()) :
    (access.removeArtifact name).run.Meets (notebook noteOf) (fun _ _ => True)
      (fun result after => stopped after = !result.isOk) notes := by
  unfold TargetAccess.removeArtifact attempt
  rw [named, Task.meets_except_bind]
  unfold liftExcept
  rw [ExceptT.run_mk, Task.meets_pure]
  dsimp only
  rw [Task.meets_except_bind, Task.meets_except_lift]
  refine ⟨trivial, fun answer after looked => ?_⟩
  cases looked
  rcases answer with error | metadata
  · rw [Task.meets_done]
    dsimp only [noteOf]
    by_cases absent : error.kind = .notFound
    · rw [if_pos absent, if_pos absent]
      rfl
    · rw [if_neg absent, if_neg absent]
      rfl
  · rw [Task.meets_done]
    dsimp only [noteOf]
    split
    · rfl
    · refine ⟨trivial, fun answer after removing => ?_⟩
      cases removing
      rcases answer with error | _
      · rfl
      · refine ⟨trivial, fun answer after synced => ?_⟩
        cases synced
        rcases answer with error | _
        · rfl
        · rfl

/-- Clearing artifacts comes to its end, or stops and asks for a recovery. -/
theorem discardArtifacts_notes {job : StageJob T} {names : List String}
    (named : ∀ name ∈ names, validateArtifactName name = .ok ()) :
    (names.forM (discardArtifact job)).run.Meets (notebook noteOf) (fun _ _ => True)
      (fun result after => match result with
        | .ok _ => names = [] ∧ after = notes ∨ stopped after = false
        | .error error => names ≠ [] ∧ error.recoveryRequired = true ∧ stopped after = true)
      notes := by
  induction names generalizing notes with
  | nil => exact .inl ⟨rfl, rfl⟩
  | cons name rest ih =>
      change Task.Meets _ _ (ExceptT.run (discardArtifact job name >>= fun _ =>
        rest.forM (discardArtifact job))) _ _
      unfold discardArtifact
      rw [Task.meets_except_bind, Task.meets_except_bind, Task.meets_except_lift]
      refine (removeArtifact_notes (named name List.mem_cons_self)).mono
        fun result middle cleared => ?_
      cases result with
      | error error => exact ⟨List.cons_ne_nil name rest, rfl, cleared⟩
      | ok removed =>
          refine (ih fun name among => named name (List.mem_cons_of_mem _ among)).mono
            fun result after told => ?_
          cases result with
          | error error => exact ⟨List.cons_ne_nil name rest, told.2⟩
          | ok value =>
              rcases told with ⟨_, rfl⟩ | clear
              · exact .inr cleared
              · exact .inr clear

/-! ### Errors that ask for nothing -/

def Unflagged (error : WorktreeError) : Prop :=
  error.recoveryRequired = false

theorem invalidStage_unflagged (text message : String) : Unflagged (invalidStage text message) := by
  unfold invalidStage
  dsimp only
  split
  · rfl
  · rfl

theorem finishArtifact_raises {name text : String} {file : Ino} {permissions : PortablePermissions}
    {maxBytes index : Nat} {expected : Sha256Hash} :
    Task.Raises (finishArtifact crates access name file permissions maxBytes expected text index)
      Unflagged := by
  unfold finishArtifact orElse
  refine Task.Raises.bind (Task.raises_adapt fun _ => rfl) fun _ => ?_
  refine Task.Raises.bind (Task.raises_adapt fun _ => rfl) fun evidence => ?_
  exact Task.raises_ite (fun _ => Task.raises_throw (invalidStage_unflagged text _)) fun _ =>
    Task.raises_pure _

theorem writeArtifact_raises {name text : String} {bytes : Bytes}
    {permissions : PortablePermissions} {maxBytes index : Nat} {expected : Sha256Hash} :
    Task.Raises (writeArtifact crates access name bytes permissions maxBytes expected text index)
      Unflagged := by
  unfold writeArtifact orElse
  refine Task.Raises.bind (Task.raises_adapt fun _ => rfl) fun _ => ?_
  exact Task.Raises.bind (Task.raises_adapt fun _ => rfl) fun _ => finishArtifact_raises

theorem writeOutput_raises {name text : String} {present : ProjectedPresent T} {index : Nat} :
    Task.Raises (writeOutput crates access name present options text index) Unflagged := by
  unfold writeOutput writeRecipe orElse
  refine Task.Raises.bind (Task.raises_adapt fun _ => rfl) fun file => ?_
  refine Task.Raises.bind ?_ fun _ => finishArtifact_raises
  split
  · exact Task.raises_adapt fun _ => rfl
  · split
    · exact Task.raises_throw rfl
    · exact Task.raises_adapt fun _ => rfl

theorem stageArtifacts_raises {job : StageJob T} :
    Task.Raises (stageArtifacts crates options job) Unflagged := by
  unfold stageArtifacts stageBackup stageOutput orElse
  refine Task.Raises.bind ?_ fun _ => Task.Raises.bind ?_ fun _ =>
    Task.Raises.bind (Task.raises_adapt fun _ => rfl) fun _ => Task.raises_pure _
  · split
    · exact Task.Raises.bind writeArtifact_raises fun _ => Task.raises_pure _
    · exact Task.raises_pure _
    · exact Task.raises_throw (invalidStage_unflagged _ _)
  · split
    · exact Task.Raises.bind writeOutput_raises fun _ => Task.raises_pure _
    · exact Task.raises_pure _
    · exact Task.raises_throw (invalidStage_unflagged _ _)

/-! ### A job alone -/

theorem stageJob_names (valid : isValidId id = true) :
    ∀ name ∈ (stageJob id path).names, validateArtifactName name = .ok () := by
  intro name among
  unfold StageJob.names stageJob at among
  rcases List.mem_append.mp among with stage | backup
  · cases after : path.after with
    | absent =>
        rw [after] at stage
        cases stage
    | present present =>
        rw [after] at stage
        rw [List.mem_singleton.mp stage]
        exact validateArtifactName_of_id _ valid (.inl rfl)
  · cases before : path.before with
    | absent =>
        rw [before] at backup
        cases backup
    | present source evidence =>
        rw [before] at backup
        rw [List.mem_singleton.mp backup]
        exact validateArtifactName_of_id _ valid (.inr rfl)

/-- The error of a job asks for a recovery when the job was stopped, and else not. -/
theorem stageOne_notes (valid : isValidId id = true) :
    (stageOne crates options (stageJob id path)).run.Meets (notebook noteOf) (fun _ _ => True)
      (fun result after => ∀ error, result = .error error →
        (error.recoveryRequired = true → (stageJob id path).names ≠ []) ∧
        ((stageJob id path).names ≠ [] → error.recoveryRequired = stopped after)) notes := by
  unfold stageOne
  rw [Task.meets_except_bind, Task.meets_except_lift]
  refine (Task.Ends.meets stageArtifacts_raises notes).mono fun result middle plain => ?_
  cases result with
  | ok staged =>
      intro error impossible
      cases impossible
  | error primary =>
      have plain : primary.recoveryRequired = false := plain primary rfl
      dsimp only
      rw [Task.meets_except_bind]
      refine (discardArtifacts_notes (stageJob_names valid)).mono fun result after told => ?_
      cases result with
      | error error =>
          intro found same
          cases same
          obtain ⟨some_name, flagged, stops⟩ := told
          exact ⟨fun _ => some_name, fun _ => flagged.trans stops.symm⟩
      | ok value =>
          intro error same
          cases same
          refine ⟨fun flagged => ?_, fun some_name => ?_⟩
          · rw [plain] at flagged
            cases flagged
          · rcases told with ⟨no_name, _⟩ | clear
            · exact absurd no_name some_name
            · rw [plain, clear]

/-- A job creates an artifact before anything else, if it makes one. -/
theorem stageOne_opens (valid : isValidId id = true) :
    (stageOne crates options (stageJob id path)).run.Opens fun op =>
      ∀ answer, noteOf op answer = .creates ↔ (stageJob id path).names ≠ [] := by
  have stage := validateArtifactName_of_id path.stableIndex valid (.inl rfl : ArtifactKind "stage")
  have backup :=
    validateArtifactName_of_id path.stableIndex valid (.inr rfl : ArtifactKind "backup")
  obtain ⟨index, text, access, before, after⟩ := path
  unfold stageOne stageArtifacts stageBackup stageOutput
  cases before with
  | present source evidence =>
      unfold writeArtifact TargetAccess.createNew
      simp only [stageJob]
      rw [backup]
      exact fun answer => ⟨fun _ => by simp [StageJob.names], fun _ => rfl⟩
  | absent =>
      cases after with
      | present present =>
          unfold writeOutput TargetAccess.createNew
          simp only [stageJob]
          rw [stage]
          exact fun answer => ⟨fun _ => by simp [StageJob.names], fun _ => rfl⟩
      | absent =>
          intro answer
          refine ⟨fun impossible => ?_, fun some_name => absurd rfl some_name⟩
          cases answer with
          | error error => cases impossible
          | ok value => cases impossible

/-! ### A job that may panic -/

variable {ε ρ : Type} {program : Task FsOp (Except ε ρ)}

theorem unwindAfter_notes {post : Except ε ρ → List CallNote → Prop} (payload : Payload)
    (count : Nat)
    (meets : program.Meets (notebook noteOf) (fun _ _ => True) post notes) :
    (unwindAfter payload count program).Meets (notebook noteOf) (fun _ _ => True)
      (fun ending after => match ending with
        | .returned result => notes.length + count ≠ after.length ∧ post result after
        | .unwound _ => notes.length + count = after.length) notes := by
  induction count generalizing program notes with
  | zero => rfl
  | succ count ih =>
      cases program with
      | done result => exact ⟨by omega, meets⟩
      | call op next =>
          refine ⟨trivial, fun answer after noted => ?_⟩
          have counted : after.length = notes.length + 1 := by
            have noted : after = noteOf op answer :: notes := noted
            rw [noted, List.length_cons]
          refine (ih (meets.2 answer after noted)).mono fun ending last told => ?_
          cases ending with
          | returned result => exact ⟨by omega, told.2⟩
          | unwound payload =>
              have told : after.length + count = last.length := told
              change notes.length + (count + 1) = last.length
              omega

theorem unwinding_notes {operation : ExceptT ε (Task FsOp) ρ}
    {post : Except ε ρ → List CallNote → Prop} (panic : Option (Nat × Payload))
    (meets : operation.run.Meets (notebook noteOf) (fun _ _ => True) post []) :
    (unwinding panic operation).Meets (notebook noteOf) (fun _ _ => True)
      (fun ending after => match ending with
        | .returned result => panicked panic after = false ∧ post result after
        | .unwound _ => panicked panic after = true) [] := by
  cases panic with
  | none =>
      unfold unwinding
      rw [Task.meets_map]
      exact meets.mono fun result after told => ⟨rfl, told⟩
  | some panic =>
      refine (unwindAfter_notes panic.2 panic.1 meets).mono fun ending after told => ?_
      cases ending with
      | returned result =>
          refine ⟨?_, told.2⟩
          unfold panicked
          rw [Option.any_some, decide_eq_false]
          have other := told.1
          rw [List.length_nil, Nat.zero_add] at other
          exact other
      | unwound payload =>
          have same : [].length + panic.1 = after.length := told
          rw [List.length_nil, Nat.zero_add] at same
          unfold panicked
          rw [Option.any_some, decide_eq_true same]

/-- The job panics before its first call. -/
def AtOnce (panic : Option (Nat × Payload)) : Prop :=
  ∃ payload, panic = some (0, payload)

theorem unwinding_opens {operation : ExceptT ε (Task FsOp) ρ} {panic : Option (Nat × Payload)}
    {shown : {κ : Type} → FsOp κ → Prop} (opens : operation.run.Opens shown)
    (later : ¬ AtOnce panic) : (unwinding panic operation).Opens shown := by
  cases panic with
  | none => exact opens.map _
  | some panic =>
      obtain ⟨count, payload⟩ := panic
      cases count with
      | zero => exact absurd ⟨payload, rfl⟩ later
      | succ count =>
          unfold unwinding
          dsimp only
          revert opens
          cases operation.run with
          | done result => exact False.elim
          | call op next => exact id

theorem begun_iff (valid : isValidId id = true) {panic : Option (Nat × Payload)}
    (later : ¬ AtOnce panic) {outcome : Except (ScheduleError WorktreeError) StagedPath}
    (returned : (catchUnwind <$> unwinding panic (stageOne crates options
      (stageJob id path))).Returns (notebook noteOf) [] outcome notes) :
    begun notes = true ↔ (stageJob id path).names ≠ [] := by
  obtain ⟨κ, op, answer, shown, first⟩ :=
    ((unwinding_opens (stageOne_opens valid) later).map catchUnwind).first returned
  unfold begun
  rw [first, decide_eq_true_iff, Option.some_inj]
  exact shown answer

/-- What the ending of a job says about its artifacts, beside what it noted. -/
theorem stagingJob_notes (valid : isValidId id = true) {panic : Option (Nat × Payload)}
    {error : ScheduleError WorktreeError}
    (returned : (catchUnwind <$> unwinding panic (stageOne crates options
      (stageJob id path))).Returns (notebook noteOf) [] (.error error) notes) :
    match error with
    | .operation error =>
        (error.recoveryRequired = true ↔ GivesUp panic notes) ∧
          (error.recoveryRequired = true ↔ Tells panic notes)
    | .panicked _ => ¬ Tells panic notes ∧
        ((stageJob id path).names ≠ [] → ¬ AtOnce panic → GivesUp panic notes)
    | .cancelled => False := by
  have begins : ¬ AtOnce panic → (begun notes = true ↔ (stageJob id path).names ≠ []) :=
    fun later => begun_iff valid later returned
  rw [← bind_pure_comp, Task.returns_bind] at returned
  obtain ⟨ending, middle, came, same, rfl⟩ := returned
  have told := (unwinding_notes panic (stageOne_notes valid)).returns came
  rcases ending with (found | value) | payload
  · cases same
    obtain ⟨finished, told⟩ := told
    obtain ⟨named, told⟩ := told found rfl
    have begins := begins (by
      rintro ⟨payload, rfl⟩
      cases came.1)
    have both : found.recoveryRequired = true ↔ begun notes = true ∧ stopped notes = true := by
      constructor
      · intro flagged
        exact ⟨begins.mpr (named flagged), (told (named flagged)).symm.trans flagged⟩
      · rintro ⟨began, stops⟩
        exact (told (begins.mp began)).trans stops
    refine ⟨both.trans ⟨fun given => ⟨given.1, .inr given.2⟩, fun given => ⟨given.1, ?_⟩⟩,
      both.trans ⟨fun given => ⟨given.1, finished, given.2⟩, fun given => ⟨given.1, given.2.2⟩⟩⟩
    rcases given.2 with unwound | stops
    · rw [finished] at unwound
      cases unwound
    · exact stops
  · cases same
  · cases same
    have unwound : panicked panic notes = true := told
    refine ⟨fun tells => ?_, fun some_name later => ⟨(begins later).mpr some_name, .inl unwound⟩⟩
    have quiet := tells.2.1
    rw [unwound] at quiet
    cases quiet

end

end Worktree
