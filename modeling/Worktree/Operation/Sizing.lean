import Worktree.Operation.Leaving
import Worktree.Operation.Staging
/-
How long a backup is.

A staged artifact is compared with its projection by hash and by permissions. That
it is as long as the source follows from how it is made: its file is new, nobody
else has a name for it, and what is read back is what was written.
-/

namespace Worktree

open CrashLogic

theorem forall₂_both {α β : Type} {first second both : α → β → Prop} {left : List α}
    {right : List β} (one : List.Forall₂ first left right) (other : List.Forall₂ second left right)
    (combine : ∀ item value, first item value → second item value → both item value) :
    List.Forall₂ both left right := by
  induction one with
  | nil => exact .nil
  | cons head _ ih =>
      cases other with
      | cons next rest => exact .cons (combine _ _ head next) (ih rest)

/-- The staged path stands for the projected one, with a backup as long as its
source. -/
structure Backs {T : Type} (id : String) (path : ProjectedPath T) (staged : StagedPath) : Prop where
  stands : Stands id path staged
  sized : Sized path.before staged.backup

section

variable {T : Type} {crates : Crates T} {host : Host} {weather : Weather}
  {options : WorktreeOptions}

/-- What the staging jobs promise each other, and how long their backups are. -/
def sizingContract (crates : Crates T) (host : Host) (weather : Weather)
    (options : WorktreeOptions) (panics : Nat → Option (Nat × Payload))
    (jobs : List (StageJob T))
    (apart : ∀ index other slot, JobSlots host jobs index slot → JobSlots host jobs other slot →
      index = other) :
    Contract (fsMachine host weather) jobs.length (stagingJobs crates options panics jobs) where
  rely := fun index => Aside fun slot => PoolSlots host jobs slot ∧ ¬ JobSlots host jobs index slot
  promise := fun index => Aside (JobSlots host jobs index)
  waiting := fun _ _ => True
  middle := fun _ _ => True
  ended := fun index outcome _ => outcome ≠ .error .cancelled ∧
    ∀ job, jobs[index]? = some job → ∀ staged, outcome = .ok staged →
      Sized job.path.before staged.backup
  relyRefl := staging_refl jobs
  relyTrans := staging_trans jobs
  others := staging_others apart
  waitingStable := fun _ _ _ _ _ => trivial
  middleStable := fun _ _ _ _ _ => trivial
  endedStable := fun _ _ _ _ ended _ => ended
  waitingMiddle := fun _ _ _ => trivial
  endedMiddle := fun _ _ _ _ => trivial
  starts := by
    intro index bound here _
    have listed : jobs[index]? = some jobs[index] := List.getElem?_eq_getElem bound
    have shared : Shared host weather (JobSlots host jobs index)
        (fun op here => True ∧ ∀ left, (fsMachine host weather).torn op here left →
          True ∧ Aside (JobSlots host jobs index) here left)
        (Aside fun slot => PoolSlots host jobs slot ∧ ¬ JobSlots host jobs index slot) :=
      ⟨fun here => Aside.refl _ here, fun here finish moved => moved.mono fun slot other => other.2,
        fun op here torn => ⟨trivial, fun left came => ⟨trivial, torn left came⟩⟩⟩
    have staged : (stageOne crates options jobs[index]).run.Under (fsMachine host weather) _ _ _ _
        here := stageOne_under shared fun name among => ⟨jobs[index], listed, name, among, rfl⟩
    have worked := unwinding_under (fun _ => True) (panics index) (fun _ _ _ _ => trivial)
      (fun _ _ _ _ => trivial) staged trivial
    simp only [stagingJobs, listed]
    refine Task.Under.map (worked.mono fun ending finish told =>
      ⟨catchUnwind_ne_cancelled ending, fun job found path same => ?_⟩)
    cases found
    rcases ending with (error | value) | payload
    · cases same
    · cases same
      exact (told.2 _ rfl).2
    · cases same

theorem stageAll_backs (panics : Nat → Option (Nat × Payload)) (projected : ProjectedPlan T)
    (id : String) (valid : isValidId id = true)
    (numbered : ∀ (index : Nat) (path : ProjectedPath T), projected.paths[index]? = some path →
      path.stableIndex = index) (writer : Writer) (start : World) :
    ((stageAll crates panics projected id options).run.run writer).Meets
      (fsMachine host weather).phased (fun _ _ => True) (fun result _ => ∀ value,
        result.1 = .ok value → value.1 = projected.operation ∧ value.2.1 = projected.operations ∧
          List.Forall₂ (Backs id) projected.paths value.2.2) start := by
  refine stageAll_collects panics projected id (fun middle => ?_) writer start
  have stood : (mapUnwinding (projected.paths.map (stageJob id))
      (options.workerCount crates.availableParallelism (projected.paths.map (stageJob id)).length)
      fun index job => unwinding (panics index) (stageOne crates options job)).Meets
      (fsMachine host weather).phased (fun _ _ => True) (fun results _ =>
        List.Forall₂ (Delivers fun (job : StageJob T) staged => Stands id job.path staged)
          (projected.paths.map (stageJob id)) results ∧
        (.error .cancelled ∈ results → ∃ error, error ≠ .cancelled ∧ .error error ∈ results))
      middle := by
    refine mapUnwinding_delivers _ fun index job found => ?_
    rw [List.getElem?_map] at found
    obtain ⟨path, _, rfl⟩ := Option.map_eq_some_iff.mp found
    exact unwinding_gains (stageOne_gains id path)
  have apart : ∀ index other slot, JobSlots host (projected.paths.map (stageJob id)) index slot →
      JobSlots host (projected.paths.map (stageJob id)) other slot → index = other :=
    fun index other slot mine yours =>
      (JobSlots.artifact numbered mine).index_eq valid (JobSlots.artifact numbered yours)
  have measured : (mapUnwinding (projected.paths.map (stageJob id))
      (options.workerCount crates.availableParallelism (projected.paths.map (stageJob id)).length)
      fun index job => unwinding (panics index) (stageOne crates options job)).Meets
      (fsMachine host weather).phased (fun _ _ => True) (fun results _ =>
        List.Forall₂ (Delivers fun (job : StageJob T) staged => Sized job.path.before staged.backup)
          (projected.paths.map (stageJob id)) results ∧
        (.error .cancelled ∈ results → ∃ error, error ≠ .cancelled ∧ .error error ∈ results))
      middle := by
    refine mapUnwinding_contracts _ (sizingContract crates host weather options panics _ apart)
      (funext fun index => ?_) (fun _ _ => trivial) fun _ _ _ known => known
    unfold stagingJobs
    cases (projected.paths.map (stageJob id))[index]? <;> rfl
  refine (stood.and measured).mono fun results finish told => ?_
  obtain ⟨⟨stand, complete⟩, sizes, _⟩ := told
  refine ⟨forall₂_both stand sizes fun job result stands sized value same => ?_, complete⟩
  exact ⟨stands value same, sized value same⟩

end

end Worktree
