import Worktree.CrashLogic.Run
/-
What the jobs of a pool noted of their calls.

A run of a pool is annotated with a notebook for each job. What a job stored is
then the end of a run of the job alone that noted the same. So a fact about the
answers that one job had is proved of that job by itself, and a machine can leave
out the pools in which certain answers come together.
-/

namespace CrashLogic

universe u

/-- Every call may have every answer, and something is noted of both. The latest note
comes first. -/
def notebook {Op : Type → Type u} {ν : Type} (note : {κ : Type} → Op κ → κ → ν) :
    Machine Op (List ν) where
  step := fun op notes answer after => after = note op answer :: notes
  torn := fun _ _ _ => False

namespace Task

variable {Op : Type → Type u} {ν α β : Type} {note : {κ : Type} → Op κ → κ → ν}

/-- No note is taken back. -/
theorem Returns.notes {program : Task Op α} {notes after : List ν} {value : α}
    (returned : program.Returns (notebook note) notes value after) :
    ∃ later, after = later ++ notes := by
  induction program generalizing notes with
  | done value =>
      obtain ⟨_, rfl⟩ := returned
      exact ⟨[], rfl⟩
  | call op next ih =>
      obtain ⟨answer, middle, noted, rest⟩ := returned
      have noted : middle = note op answer :: notes := noted
      subst noted
      obtain ⟨later, rfl⟩ := ih answer rest
      exact ⟨later ++ [note op answer], by rw [List.append_assoc, List.singleton_append]⟩

/-- The program begins with such a call. -/
def Opens : Task Op α → ({κ : Type} → Op κ → Prop) → Prop
  | .done _, _ => False
  | .call op _, shown => shown op

theorem Opens.map {shown : {κ : Type} → Op κ → Prop} {program : Task Op α}
    (opens : program.Opens shown) (change : α → β) : (change <$> program).Opens shown := by
  cases program with
  | done value => exact opens.elim
  | call op next => exact opens

/-- The first note is of the first call. -/
theorem Opens.first {shown : {κ : Type} → Op κ → Prop} {program : Task Op α}
    (opens : program.Opens shown) {notes : List ν} {value : α}
    (returned : program.Returns (notebook note) [] value notes) :
    ∃ (κ : Type) (op : Op κ) (answer : κ), shown op ∧ notes.getLast? = some (note op answer) := by
  cases program with
  | done value => exact opens.elim
  | call op next =>
      obtain ⟨answer, middle, noted, rest⟩ := returned
      have noted : middle = [note op answer] := noted
      subst noted
      obtain ⟨later, rfl⟩ := rest.notes
      refine ⟨_, op, answer, opens, ?_⟩
      rw [List.getLast?_append, List.getLast?_singleton, Option.some_or]

end Task

namespace Pool

variable {Op : Type → Type u} {σ ν ε ρ : Type} {machine : Machine Op σ}
  {note : {κ : Type} → Op κ → κ → ν} {jobs : Nat → Task Op (Except ε ρ)}
  {pool last : Pool Op ε ρ} {start finish : σ} {noted : Nat → List ν}

/-- No call is ever answered. -/
def mute (Op : Type → Type u) (σ : Type) : Machine Op σ where
  step := fun _ _ _ _ => False
  torn := fun _ _ _ => False

/-- Finitely many steps, with the notebooks of the jobs. -/
inductive Records (machine : Machine Op σ) (note : {κ : Type} → Op κ → κ → ν)
    (jobs : Nat → Task Op (Except ε ρ)) (pool : Pool Op ε ρ) (start : σ) :
    Pool Op ε ρ → σ → (Nat → List ν) → Prop
  | refl : Records machine @note jobs pool start pool start fun _ => []
  | quiet {middle last : Pool Op ε ρ} {here finish : σ} {noted : Nat → List ν}
      (recorded : Records machine @note jobs pool start middle here noted)
      (stepped : Step (mute Op σ) jobs middle here last finish) :
      Records machine @note jobs pool start last finish noted
  | work {queue : List Nat} {before after : List (Worker Op ε ρ)}
      {results : Nat → Option (Except ε ρ)} {cancelled : Bool} {index : Nat} {κ : Type}
      {op : Op κ} {next : κ → Task Op (Except ε ρ)} {here finish : σ} {answer : κ}
      {noted : Nat → List ν}
      (recorded : Records machine @note jobs pool start
        ⟨queue, before ++ .running index (.call op next) :: after, results, cancelled⟩ here noted)
      (stepped : machine.step op here answer finish) :
      Records machine @note jobs pool start
        ⟨queue, before ++ .running index (next answer) :: after, results, cancelled⟩ finish
        (Function.update noted index (note op answer :: noted index))

/-- A recorded run is a run. -/
theorem Records.reaches (recorded : Records machine note jobs pool start last finish noted) :
    Reaches machine jobs pool start last finish := by
  induction recorded with
  | refl => exact .refl
  | quiet _ stepped ih => exact ih.step (stepped.mono fun _ _ _ _ impossible => impossible.elim)
  | work _ stepped ih => exact ih.step (.work _ _ _ _ _ _ _ _ _ _ _ stepped)

/-- Every run is recorded. -/
theorem Reaches.recorded (note : {κ : Type} → Op κ → κ → ν)
    (reached : Reaches machine jobs pool start last finish) :
    ∃ noted, Records machine note jobs pool start last finish noted := by
  induction reached with
  | refl => exact ⟨_, .refl⟩
  | step _ stepped ih =>
      obtain ⟨noted, recorded⟩ := ih
      cases stepped with
      | take index rest before after results =>
          exact ⟨noted, recorded.quiet (.take index rest before after results _)⟩
      | leave queue before after results cancelled state nothing =>
          exact ⟨noted, recorded.quiet (.leave queue before after results cancelled _ nothing)⟩
      | work queue before after results cancelled index op next start answer finish worked =>
          exact ⟨_, recorded.work worked⟩
      | store queue before after results cancelled index outcome =>
          exact ⟨noted,
            recorded.quiet (.store queue before after results cancelled index outcome _)⟩
      | cancel queue before after results cancelled =>
          exact ⟨noted, recorded.quiet (.cancel queue before after results cancelled _)⟩

/-- The notebook of a job leads to where the job is. -/
structure Led (note : {κ : Type} → Op κ → κ → ν) (jobs : Nat → Task Op (Except ε ρ))
    (pool : Pool Op ε ρ) (noted : Nat → List ν) : Prop where
  waiting : ∀ index ∈ pool.queue, noted index = []
  running : ∀ index program, .running index program ∈ pool.workers → ∀ outcome notes,
    program.Returns (notebook note) (noted index) outcome notes →
      (jobs index).Returns (notebook note) [] outcome notes
  stored : ∀ index outcome, pool.results index = some outcome →
    (jobs index).Returns (notebook note) [] outcome (noted index)

theorem led_initial (workers count : Nat) :
    Led note jobs (Pool.initial workers count) fun _ => [] := by
  refine ⟨fun _ _ => rfl, fun index program member => ?_, fun index outcome impossible => ?_⟩
  · cases List.eq_of_mem_replicate member
  · cases impossible

theorem Led.quiet {noted : Nat → List ν} (led : Led note jobs pool noted)
    (stepped : Step (mute Op σ) jobs pool start last finish) : Led note jobs last noted := by
  cases stepped with
  | take index rest before after results =>
      refine ⟨fun other member => led.waiting other (List.mem_cons_of_mem _ member),
        fun other program member => ?_, led.stored⟩
      rcases Contract.mem_replaced .idle member with new | old
      · cases new
        intro outcome notes returned
        rw [led.waiting index List.mem_cons_self] at returned
        exact returned
      · exact led.running other program old
  | leave queue before after results cancelled state nothing =>
      refine ⟨led.waiting, fun other program member => ?_, led.stored⟩
      rcases Contract.mem_replaced .idle member with impossible | old
      · cases impossible
      · exact led.running other program old
  | work queue before after results cancelled index op next start answer finish worked =>
      exact worked.elim
  | store queue before after results cancelled index outcome =>
      refine ⟨led.waiting, fun other program member => ?_, fun other found same => ?_⟩
      · rcases Contract.mem_replaced (.running index (.done outcome)) member with new | old
        · cases outcome <;> cases new
        · exact led.running other program old
      · change Function.update results index (some outcome) other = some found at same
        by_cases here : other = index
        · subst here
          rw [Function.update_self] at same
          cases same
          exact led.running other _ (List.mem_append_right _ List.mem_cons_self) _ _ ⟨rfl, rfl⟩
        · rw [Function.update_of_ne here] at same
          exact led.stored other found same
  | cancel queue before after results cancelled =>
      refine ⟨led.waiting, fun other program member => ?_, led.stored⟩
      rcases Contract.mem_replaced .failing member with impossible | old
      · cases impossible
      · exact led.running other program old

theorem Led.work {count : Nat} {queue : List Nat} {before after : List (Worker Op ε ρ)}
    {results : Nat → Option (Except ε ρ)} {cancelled : Bool} {index : Nat} {κ : Type} {op : Op κ}
    {next : κ → Task Op (Except ε ρ)} (answer : κ)
    (placed : Contract.Placed count
      ⟨queue, before ++ .running index (.call op next) :: after, results, cancelled⟩)
    (led : Led note jobs
      ⟨queue, before ++ .running index (.call op next) :: after, results, cancelled⟩
      noted) :
    Led note jobs ⟨queue, before ++ .running index (next answer) :: after, results, cancelled⟩
      (Function.update noted index (note op answer :: noted index)) := by
  have nodup := placed.nodup
  rw [Contract.indices_split] at nodup
  have alone : index ∉ before.filterMap Worker.index? ++
      (after.filterMap Worker.index? ++ queue) :=
    (List.nodup_cons.mp (List.nodup_middle.mp nodup)).1
  have elsewhere : ∀ other, (other ∈ before.filterMap Worker.index? ∨
      other ∈ after.filterMap Worker.index? ∨ other ∈ queue) →
      Function.update noted index (note op answer :: noted index) other = noted other := by
    intro other among
    apply Function.update_of_ne
    rintro rfl
    apply alone
    simp only [List.mem_append]
    exact among
  refine ⟨fun other member => ?_, fun other program member => ?_, fun other outcome found => ?_⟩
  · rw [elsewhere other (.inr (.inr member))]
    exact led.waiting other member
  · rcases List.mem_append.mp member with early | late
    · rw [elsewhere other (.inl (List.mem_filterMap.mpr ⟨_, early, rfl⟩))]
      exact led.running other program (List.mem_append_left _ early)
    · rcases List.mem_cons.mp late with same | later
      · cases same
        intro outcome notes returned
        rw [Function.update_self] at returned
        exact led.running index _ (List.mem_append_right _ List.mem_cons_self) outcome notes
          ⟨answer, _, rfl, returned⟩
      · rw [elsewhere other (.inr (.inl (List.mem_filterMap.mpr ⟨_, later, rfl⟩)))]
        exact led.running other program
          (List.mem_append_right _ (List.mem_cons_of_mem _ later))
  · have different : other ≠ index := by
      rintro rfl
      have pending := placed.pending other (by
        rw [Contract.indices_split]
        exact List.mem_append_right _ List.mem_cons_self)
      exact absurd (pending.symm.trans found) (by simp)
    rw [Function.update_of_ne different]
    exact led.stored other outcome found

theorem Records.led {workers count : Nat}
    (recorded : Records machine note jobs (Pool.initial workers count) start last finish noted) :
    Led note jobs last noted := by
  induction recorded with
  | refl => exact led_initial workers count
  | quiet _ stepped ih => exact ih.quiet stepped
  | work recorded _ ih =>
      exact ih.work _ (Contract.placed_reaches (Contract.placed_initial workers count)
        recorded.reaches)

end Pool

/-! ### Machines that leave pools out -/

section

variable {Op : Type → Type u} {σ ν ε ρ : Type} {machine : Machine Op σ}
  {note : {κ : Type} → Op κ → κ → ν}
  {mishap : {ε ρ : Type} → (Nat → List ν) → List (Option (Except ε ρ)) → Prop}

def Machine.watchedStep (machine : Machine Op σ) (note : {κ : Type} → Op κ → κ → ν)
    (mishap : {ε ρ : Type} → (Nat → List ν) → List (Option (Except ε ρ)) → Prop) :
    {ρ : Type} → Phase Op ρ → σ → ρ → σ → Prop
  | _, .single op, start, answer, finish => machine.step op start answer finish
  | _, .spawn workers count jobs, start, answer, finish =>
      ∃ pool noted,
        Pool.Records machine note jobs (Pool.initial workers count) start pool finish noted ∧
          pool.Exited ∧ answer = (List.range count).map pool.results ∧ ¬ mishap noted answer

/-- The machine without the pools whose notebooks and results are a mishap. -/
def Machine.watched (machine : Machine Op σ) (note : {κ : Type} → Op κ → κ → ν)
    (mishap : {ε ρ : Type} → (Nat → List ν) → List (Option (Except ε ρ)) → Prop) :
    Machine (Phase Op) σ where
  step := machine.watchedStep note mishap
  torn := machine.phasedTorn

theorem Machine.phased_of_watched {κ : Type} {op : Phase Op κ} {start finish : σ} {answer : κ}
    (stepped : (machine.watched note mishap).step op start answer finish) :
    machine.phased.step op start answer finish := by
  cases op with
  | single op => exact stepped
  | spawn workers count jobs =>
      obtain ⟨pool, noted, recorded, exited, same, _⟩ := stepped
      exact ⟨pool, recorded.reaches, exited, same⟩

variable {workers count : Nat} {jobs : Nat → Task Op (Except ε ρ)} {start finish : σ}
  {answer : List (Option (Except ε ρ))}

/-- What the jobs of a pool stored and noted that is not left out. -/
theorem Machine.watched_spawn
    (stepped : (machine.watched note mishap).step (.spawn workers count jobs) start answer finish) :
    ∃ noted, ¬ mishap noted answer ∧ ∀ index outcome, answer[index]? = some (some outcome) →
      (jobs index).Returns (notebook note) [] outcome (noted index) := by
  obtain ⟨pool, noted, recorded, _, rfl, spared⟩ := stepped
  refine ⟨noted, spared, fun index outcome found => recorded.led.stored index outcome ?_⟩
  rw [List.getElem?_map] at found
  obtain ⟨place, listed, same⟩ := Option.map_eq_some_iff.mp found
  obtain ⟨bound, rfl⟩ := List.getElem?_eq_some_iff.mp listed
  rw [List.getElem_range] at same
  exact same

/-- A pool is not left out when its results are no mishap, whatever was noted. -/
theorem Machine.watched_spawn_of
    (stepped : machine.phased.step (.spawn workers count jobs) start answer finish)
    (spared : ∀ noted, ¬ mishap noted answer) :
    (machine.watched note mishap).step (.spawn workers count jobs) start answer finish := by
  obtain ⟨pool, reached, exited, same⟩ := stepped
  obtain ⟨noted, recorded⟩ := reached.recorded note
  exact ⟨pool, noted, recorded, exited, same, spared noted⟩

end

end CrashLogic
