import Worktree.CrashLogic.Schedule
import Worktree.Operation.Stage
import Worktree.Transaction.Plan
/-
Parallel preparation against the sequential one.

Whatever the number of workers and however they interleave, the results up to
the first job that fails are those of the jobs run one after the other, and the
collectors take the same error from them.
-/

namespace Worktree

open CrashLogic

section

variable {ι ε ρ : Type}

/-- The results of the jobs when each is run to its end, one after the other. -/
def sequential (items : List ι) (outcome : Nat → ι → JobEnd ε ρ) :
    List (Except (ScheduleError ε) ρ) :=
  items.mapIdx fun index item => catchUnwind (outcome index item)

/-- Results that differ from the sequential ones after the first failure only. -/
structure Agrees (alone results : List (Except (ScheduleError ε) ρ)) : Prop where
  length : results.length = alone.length
  ended : .error .cancelled ∉ alone
  complete : (∀ result ∈ alone, ∃ value, result = .ok value) → results = alone
  first : ∀ (failing : Nat) (error : ScheduleError ε),
    alone[failing]? = some (.error error) →
    (∀ earlier < failing, ∃ value, alone[earlier]? = some (.ok value)) →
      (∀ index ≤ failing, results[index]? = alone[index]?) ∧
      ∀ index, results[index]? = some (.error .cancelled) → failing < index

theorem catchUnwind_ne_cancelled (ended : JobEnd ε ρ) :
    catchUnwind ended ≠ .error .cancelled := by
  cases ended with
  | returned result => cases result <;> simp [catchUnwind]
  | unwound payload => simp [catchUnwind]

theorem sequential_getElem? (items : List ι) (outcome : Nat → ι → JobEnd ε ρ) (index : Nat) :
    (sequential items outcome)[index]? =
      items[index]?.map fun item => catchUnwind (outcome index item) := by
  rw [sequential, List.getElem?_mapIdx]

theorem sequential_ended (items : List ι) (outcome : Nat → ι → JobEnd ε ρ) :
    .error .cancelled ∉ sequential items outcome := by
  intro among
  obtain ⟨index, found⟩ := List.mem_iff_getElem?.mp among
  rw [sequential_getElem?] at found
  obtain ⟨item, _, same⟩ := Option.map_eq_some_iff.mp found
  exact catchUnwind_ne_cancelled _ same

/-- Leaving out jobs from somewhere after a failure is all the pool may do. -/
theorem agrees_prefix {alone : List (Except (ScheduleError ε) ρ)} {taken : Nat}
    (ended : .error .cancelled ∉ alone)
    (stopped : taken = alone.length ∨
      ∃ failing error, failing < taken ∧ alone[failing]? = some (.error error)) :
    Agrees alone ((List.range alone.length).map fun index =>
      if index < taken then alone[index]?.getD (.error .cancelled) else .error .cancelled) := by
  have value : ∀ index, index < alone.length → index < taken →
      ((List.range alone.length).map fun index =>
        if index < taken then alone[index]?.getD (.error .cancelled)
        else .error .cancelled)[index]? = alone[index]? := by
    intro index bound below
    rw [List.getElem?_map, List.getElem?_range bound, Option.map_some, if_pos below,
      List.getElem?_eq_getElem bound, Option.getD_some]
  refine ⟨by rw [List.length_map, List.length_range], ended, ?_, ?_⟩
  · intro all
    have whole : taken = alone.length := by
      rcases stopped with whole | ⟨failing, error, _, failed⟩
      · exact whole
      · obtain ⟨value, same⟩ := all _ (List.mem_of_getElem? failed)
        cases same
    apply List.ext_getElem?
    intro index
    by_cases bound : index < alone.length
    · exact value index bound (by omega)
    · rw [List.getElem?_eq_none (by simpa using bound), List.getElem?_eq_none (by omega)]
  · intro failing error failed before
    have bound : failing < alone.length := (List.getElem?_eq_some_iff.mp failed).1
    -- the failure the pool stopped for is not before the first one
    have reached : failing < taken := by
      rcases stopped with whole | ⟨other, error', below, failed'⟩
      · omega
      · by_contra beyond
        obtain ⟨value, same⟩ := before other (by omega)
        rw [failed'] at same
        cases same
    have upTo : ∀ index ≤ failing, ((List.range alone.length).map fun index =>
        if index < taken then alone[index]?.getD (.error .cancelled)
        else .error .cancelled)[index]? = alone[index]? :=
      fun index within => value index (by omega) (by omega)
    refine ⟨upTo, fun index cancelled => ?_⟩
    by_contra early
    rw [upTo index (by omega)] at cancelled
    exact ended (List.mem_of_getElem? cancelled)

/-! ### Any schedule -/

theorem mapUnwinding_meets {host : Host} {weather : Weather} {items : List ι}
    {operation : Nat → ι → Task FsOp (JobEnd ε ρ)} {outcome : Nat → ι → JobEnd ε ρ}
    {allowed : {ρ : Type} → FsOp ρ → Prop} {known : World → Prop}
    (maintains : (fsMachine host weather).Maintains allowed known)
    (settled : ∀ index item, items[index]? = some item →
      (operation index item).Upholds (fsMachine host weather) allowed known
        (· = outcome index item))
    (requestedWorkers : Nat) {start : World} (knows : known start) :
    (mapUnwinding items requestedWorkers operation).Meets (fsMachine host weather).phased
      (fun _ _ => True) (fun results _ => Agrees (sequential items outcome) results) start := by
  have measured : (sequential items outcome).length = items.length := List.length_mapIdx
  unfold mapUnwinding
  split
  · next nobody =>
      have empty : items = [] := by
        unfold boundedWorkerCount at nobody
        split at nobody
        · next none => exact List.length_eq_zero_iff.mp none
        · next some =>
            unfold hardMaxWorkers at nobody
            omega
      subst empty
      refine ⟨rfl, sequential_ended _ _, fun _ => rfl, fun failing error failed => ?_⟩
      cases failed
  · next somebody =>
      rw [Task.meets_bind]
      refine (Contract.meets_spawn_settled
        (fun index => (sequential items outcome)[index]?.getD (.error .cancelled)) _
        (by omega) maintains ?_ start knows).mono ?_
      · intro index bound
        rw [sequential_getElem?, List.getElem?_eq_getElem bound, Option.map_some, Option.getD_some,
          Task.upholds_map]
        refine (settled index _ (List.getElem?_eq_getElem bound)).mono fun ended same => ?_
        rw [same]
      · rintro results finish ⟨taken, within, rfl, stopped⟩
        have halted : taken = (sequential items outcome).length ∨ ∃ failing error,
            failing < taken ∧ (sequential items outcome)[failing]? = some (.error error) := by
          rcases stopped with whole | ⟨failing, error, below, failed⟩
          · exact .inl (by omega)
          · refine .inr ⟨failing, error, below, ?_⟩
            rw [sequential_getElem?] at failed ⊢
            have bound : failing < items.length := by omega
            rw [List.getElem?_eq_getElem bound] at failed ⊢
            exact congrArg some failed
        have agrees := agrees_prefix (sequential_ended items outcome) halted
        rw [measured] at agrees
        refine Eq.mp (congrArg (Agrees _) ?_) agrees
        rw [List.map_map]
        refine List.map_congr_left fun index _ => ?_
        change _ = (if index < taken then some _ else none).getD _
        split <;> rfl

/-- Every schedule begun can be brought to its end. -/
theorem mapUnwinding_returns {host : Host} {weather : Weather}
    (answers : ∀ {κ : Type} (op : FsOp κ) (start : World),
      ∃ answer finish, (fsMachine host weather).step op start answer finish)
    (items : List ι) (requestedWorkers : Nat) (operation : Nat → ι → Task FsOp (JobEnd ε ρ))
    (start : World) :
    ∃ results finish, (mapUnwinding items requestedWorkers operation).Returns
      (fsMachine host weather).phased start results finish := by
  unfold mapUnwinding
  split
  · exact ⟨_, start, rfl, rfl⟩
  · obtain ⟨pool, finish, reached, exited⟩ := Pool.completes answers _ start
    exact ⟨_, finish, _, finish, ⟨pool, reached, exited, rfl⟩, rfl, rfl⟩

/-! ### The error of the collectors -/

/-- The values before the first failure, and the failure. -/
theorem first_error (results : List (Except ε ρ)) :
    (∀ result ∈ results, ∃ value, result = .ok value) ∨
      ∃ (values : List ρ) (error : ε) (rest : List (Except ε ρ)),
        results = values.map .ok ++ .error error :: rest := by
  induction results with
  | nil =>
      left
      intro result impossible
      cases impossible
  | cons result rest ih =>
      cases result with
      | error error => exact .inr ⟨[], error, rest, rfl⟩
      | ok value =>
          rcases ih with all | ⟨values, error, later, rfl⟩
          · left
            intro result among
            rcases List.mem_cons.mp among with rfl | further
            · exact ⟨value, rfl⟩
            · exact all result further
          · exact .inr ⟨value :: values, error, later, rfl⟩

/-- Results that agree are the same, or the same up to the first failure. -/
theorem Agrees.split {alone results : List (Except (ScheduleError ε) ρ)}
    (agrees : Agrees alone results) :
    results = alone ∨ ∃ (values : List ρ) (error : ScheduleError ε)
      (rest rest' : List (Except (ScheduleError ε) ρ)), error ≠ .cancelled ∧
        alone = values.map .ok ++ .error error :: rest ∧
        results = values.map .ok ++ .error error :: rest' := by
  rcases first_error alone with all | ⟨values, error, rest, same⟩
  · exact .inl (agrees.complete all)
  · right
    have genuine : error ≠ .cancelled := by
      rintro rfl
      exact agrees.ended (same ▸ List.mem_append_right _ List.mem_cons_self)
    refine ⟨values, error, rest, results.drop (values.length + 1), genuine, same, ?_⟩
    have failed : alone[values.length]? = some (.error error) := by
      rw [same, List.getElem?_append_right (by rw [List.length_map]), List.length_map,
        Nat.sub_self]
      rfl
    have before : ∀ earlier < values.length, ∃ value, alone[earlier]? = some (.ok value) := by
      intro earlier below
      refine ⟨values[earlier], ?_⟩
      rw [same, List.getElem?_append_left (by rw [List.length_map]; exact below),
        List.getElem?_map, List.getElem?_eq_getElem below]
      rfl
    have upTo := (agrees.first _ error failed before).1
    have taken : results.take (values.length + 1) = alone.take (values.length + 1) := by
      apply List.ext_getElem?
      intro index
      rw [List.getElem?_take, List.getElem?_take]
      split
      · next within => exact upTo index (by omega)
      · rfl
    rw [same] at taken
    have front : (values.map Except.ok ++ Except.error error :: rest).take (values.length + 1) =
        values.map .ok ++ [.error error] := by
      rw [List.take_append, List.take_of_length_le (by rw [List.length_map]; omega),
        List.length_map, Nat.add_sub_cancel_left]
      rfl
    rw [front] at taken
    calc results = results.take (values.length + 1) ++ results.drop (values.length + 1) :=
          (List.take_append_drop ..).symm
      _ = _ := by rw [taken, List.append_assoc]; rfl

theorem collectSnapshots_error {T : Type} (values : List (SnapshotResult T))
    (error : ScheduleError WorktreeError)
    (rest rest' : List (Except (ScheduleError WorktreeError) (SnapshotResult T))) (index : Nat) :
    collectSnapshots index (values.map .ok ++ .error error :: rest) =
      collectSnapshots index (values.map .ok ++ .error error :: rest') := by
  induction values generalizing index with
  | nil => cases error <;> rfl
  | cons value values ih =>
      simp only [List.map_cons, List.cons_append, collectSnapshots, ih]

theorem collectResults_error {α : Type} (values : List α) (error : ScheduleError WorktreeError)
    (rest rest' : List (Except (ScheduleError WorktreeError) α)) (index : Nat) :
    Edit.collectResults index (values.map .ok ++ .error error :: rest) =
      Edit.collectResults index (values.map .ok ++ .error error :: rest') := by
  induction values generalizing index with
  | nil => cases error <;> rfl
  | cons value values ih =>
      simp only [List.map_cons, List.cons_append, Edit.collectResults, ih]

theorem sortResults_error (values : List StagedPath) {error : ScheduleError WorktreeError}
    (genuine : error ≠ .cancelled)
    (rest rest' : List (Except (ScheduleError WorktreeError) StagedPath)) (index : Nat) :
    (sortResults index (values.map .ok ++ .error error :: rest)).2 =
      (sortResults index (values.map .ok ++ .error error :: rest')).2 := by
  induction values generalizing index with
  | nil =>
      cases error with
      | operation error => rfl
      | panicked message => rfl
      | cancelled => exact absurd rfl genuine
  | cons value values ih =>
      simp only [List.map_cons, List.cons_append, sortResults, ih]

/-- The three collectors take from results what they take from the jobs run one
after the other. -/
structure Collects (T α : Type) : Prop where
  projection : ∀ alone results : List (Except (ScheduleError WorktreeError) (SnapshotResult T)),
    Agrees alone results → collectSnapshots 0 results = collectSnapshots 0 alone
  staging : ∀ alone results : List (Except (ScheduleError WorktreeError) StagedPath),
    Agrees alone results → (sortResults 0 results).2 = (sortResults 0 alone).2
  planning : ∀ alone results : List (Except (ScheduleError WorktreeError) α),
    Agrees alone results → Edit.collectResults 0 results = Edit.collectResults 0 alone

theorem collects (T α : Type) : Collects T α := by
  constructor
  · intro alone results agrees
    rcases agrees.split with rfl | ⟨values, error, rest, rest', _, rfl, rfl⟩
    · rfl
    · exact collectSnapshots_error values error rest' rest 0
  · intro alone results agrees
    rcases agrees.split with rfl | ⟨values, error, rest, rest', genuine, rfl, rfl⟩
    · rfl
    · exact sortResults_error values genuine rest' rest 0
  · intro alone results agrees
    rcases agrees.split with rfl | ⟨values, error, rest, rest', _, rfl, rfl⟩
    · rfl
    · exact collectResults_error values error rest' rest 0

/-- Jobs that end in one way each, whatever the others do: the results of any
number of workers on any schedule agree with those of the jobs run one after the
other, some result is always reached, and the collectors see no difference. -/
theorem mapUnwinding_agrees {T α : Type} {host : Host} {weather : Weather} (items : List ι)
    (operation : Nat → ι → Task FsOp (JobEnd ε ρ)) (outcome : Nat → ι → JobEnd ε ρ)
    {allowed : {ρ : Type} → FsOp ρ → Prop} {known : World → Prop}
    (maintains : (fsMachine host weather).Maintains allowed known)
    (settled : ∀ index item, items[index]? = some item →
      (operation index item).Upholds (fsMachine host weather) allowed known
        (· = outcome index item)) :
    (∀ requestedWorkers start, known start →
      (mapUnwinding items requestedWorkers operation).Meets (fsMachine host weather).phased
        (fun _ _ => True) (fun results _ => Agrees (sequential items outcome) results) start) ∧
    ((∀ {κ : Type} (op : FsOp κ) (start : World),
        ∃ answer finish, (fsMachine host weather).step op start answer finish) →
      ∀ requestedWorkers start, ∃ results finish,
        (mapUnwinding items requestedWorkers operation).Returns (fsMachine host weather).phased
          start results finish) ∧
    Collects T α := by
  refine ⟨fun requestedWorkers start => ?_, fun answers requestedWorkers start => ?_,
    collects T α⟩
  · exact mapUnwinding_meets maintains settled requestedWorkers
  · exact mapUnwinding_returns answers items requestedWorkers operation start

theorem mapUnwinding_agrees_panic :
    (∀ (requestedWorkers : Nat) (start : World),
      (mapUnwinding [3, 1, 2] requestedWorkers fun index item =>
        (fun _ => if index = 1 then (.unwound (.text "worker failed") : JobEnd Nat Nat)
          else if index = 2 then .returned (.error item) else .returned (.ok (item * 2))) <$>
            (perform (.random 16)).run).Meets (fsMachine .plain .stormy).phased (fun _ _ => True)
        (fun results _ => Agrees
          [.ok 6, .error (.panicked "worker failed"), .error (.operation 2)] results) start) ∧
    Collects Nat Nat := by
  have maintains : (fsMachine .plain .stormy).Maintains (fun _ => True) (fun _ => True) :=
    ⟨fun _ _ _ _ _ _ _ => trivial, fun _ _ _ _ _ _ => trivial⟩
  have settled : ∀ index item, [3, 1, 2][index]? = some item →
      ((fun _ => if index = 1 then (.unwound (.text "worker failed") : JobEnd Nat Nat)
        else if index = 2 then .returned (.error item) else .returned (.ok (item * 2))) <$>
          (perform (.random 16)).run).Upholds (fsMachine .plain .stormy) (fun _ => True)
        (fun _ => True) (· = if index = 1 then .unwound (.text "worker failed")
          else if index = 2 then .returned (.error item) else .returned (.ok (item * 2))) := by
    intro index item _
    rw [Task.upholds_map]
    exact ⟨.inr trivial, fun _ _ _ _ _ => rfl⟩
  obtain ⟨agrees, _, collects⟩ :=
    mapUnwinding_agrees (T := Nat) (α := Nat) [3, 1, 2] _ _ maintains settled
  exact ⟨fun requestedWorkers start => agrees requestedWorkers start trivial, collects⟩

end

end Worktree
