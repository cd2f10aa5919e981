import Worktree.CrashLogic.Pool
/-
The one run of a program on a kernel that answers every call, step by step, and
one run of a program that starts pools, in which the first worker does it all.
-/

namespace CrashLogic

universe u

namespace Task

variable {Op : Type → Type u} {σ τ α β ε ε' : Type} {kernel : Kernel Op σ} {start middle : σ}

/-! ### Programs that may end with an error -/

theorem run_except_ok {program : ExceptT ε (Task Op) α} {value : α}
    (after : α → ExceptT ε (Task Op) β)
    (ran : program.run.run kernel start = (.ok value, middle)) :
    (program >>= after).run.run kernel start = (after value).run.run kernel middle := by
  rw [ExceptT.run_bind, run_bind, ran]

theorem run_except_error {program : ExceptT ε (Task Op) α} {error : ε}
    (after : α → ExceptT ε (Task Op) β)
    (ran : program.run.run kernel start = (.error error, middle)) :
    (program >>= after).run.run kernel start = (.error error, middle) := by
  rw [ExceptT.run_bind, run_bind, ran]
  rfl

theorem run_except_lift (program : Task Op α) :
    (ExceptT.lift program : ExceptT ε (Task Op) α).run.run kernel start =
      (.ok (program.run kernel start).1, (program.run kernel start).2) := by
  rw [ExceptT.run_lift, ← bind_pure_comp, run_bind]
  rfl

theorem run_except_adapt (change : ε → ε') (program : ExceptT ε (Task Op) α) :
    (ExceptT.adapt change program).run.run kernel start =
      ((program.run.run kernel start).1.mapError change, (program.run.run kernel start).2) := by
  rw [ExceptT.run_adapt, ← bind_pure_comp, run_bind]
  rfl

/-! ### The run of a machine that answers as the kernel does -/

/-- Every call of the run passes the check. -/
def passes (kernel : Kernel Op σ) (check : {ρ : Type} → Op ρ → σ → Bool) : Task Op α → σ → Bool
  | .done _, _ => true
  | .call op next, start =>
      check op start &&
        (next (kernel.exec op start).1).passes kernel check (kernel.exec op start).2

theorem returns_of_passes {machine : Machine Op σ} {check : {ρ : Type} → Op ρ → σ → Bool}
    (steps : ∀ {ρ : Type} (op : Op ρ) (start : σ), check op start = true →
      machine.step op start (kernel.exec op start).1 (kernel.exec op start).2)
    (program : Task Op α) (start : σ) (passing : program.passes kernel check start = true) :
    program.Returns machine start (program.run kernel start).1 (program.run kernel start).2 := by
  induction program generalizing start with
  | done value => exact ⟨rfl, rfl⟩
  | call op next ih =>
      obtain ⟨checked, further⟩ := Bool.and_eq_true_iff.mp passing
      exact ⟨_, _, steps op start checked, ih _ _ further⟩

end Task

/-! ### Pools with one busy worker -/

namespace Pool

variable {Op : Type → Type u} {σ ε ρ : Type} {machine : Machine Op σ}
  {jobs : Nat → Task Op (Except ε ρ)}

/-- The jobs one after the other until one of them fails. -/
def runJobs (kernel : Kernel Op σ) (jobs : Nat → Task Op (Except ε ρ)) :
    List Nat → (Nat → Option (Except ε ρ)) → σ → (Nat → Option (Except ε ρ)) × σ
  | [], results, start => (results, start)
  | index :: rest, results, start =>
      match (jobs index).run kernel start with
      | (.ok value, after) =>
          runJobs kernel jobs rest (Function.update results index (some (.ok value))) after
      | (.error error, after) =>
          (Function.update results index (some (.error error)), after)

/-- A worker makes the calls of its job while the others wait. -/
theorem reaches_returns (queue : List Nat) (after : List (Worker Op ε ρ))
    (results : Nat → Option (Except ε ρ)) (cancelled : Bool) (index : Nat)
    {program : Task Op (Except ε ρ)} {start finish : σ} {outcome : Except ε ρ}
    (returned : program.Returns machine start outcome finish) :
    Reaches machine jobs ⟨queue, .running index program :: after, results, cancelled⟩ start
      ⟨queue, .running index (.done outcome) :: after, results, cancelled⟩ finish := by
  induction program generalizing start with
  | done value =>
      obtain ⟨rfl, rfl⟩ := returned
      exact .refl
  | call op next ih =>
      obtain ⟨answer, middle, stepped, rest⟩ := returned
      refine Reaches.trans (Reaches.refl.step ?_) (ih answer rest)
      exact Step.work queue [] after results cancelled index op next start answer middle stepped

/-- Workers that find nothing to do leave. -/
theorem reaches_leave {queue : List Nat} {cancelled : Bool}
    (nothing : cancelled = true ∨ queue = []) (results : Nat → Option (Except ε ρ)) (state : σ)
    (gone idle : Nat) :
    Reaches machine jobs
      ⟨queue, List.replicate gone .exited ++ List.replicate idle .idle, results, cancelled⟩ state
      ⟨queue, List.replicate (gone + idle) .exited, results, cancelled⟩ state := by
  induction idle generalizing gone with
  | zero =>
      rw [List.replicate_zero, List.append_nil]
      exact .refl
  | succ idle ih =>
      refine Reaches.trans (Reaches.refl.step ?_) ((Nat.succ_add gone idle) ▸ ih (gone + 1))
      rw [List.replicate_succ, List.replicate_succ', List.append_assoc]
      exact Step.leave queue (List.replicate gone .exited) (List.replicate idle .idle) results
        cancelled state nothing

theorem reaches_runJobs {kernel : Kernel Op σ}
    (runs : ∀ (program : Task Op (Except ε ρ)) (start : σ), program.Returns machine start
      (program.run kernel start).1 (program.run kernel start).2) (idle : Nat) (queue : List Nat)
    (results : Nat → Option (Except ε ρ)) (start : σ) :
    ∃ pool, Reaches machine jobs ⟨queue, List.replicate (idle + 1) .idle, results, false⟩ start
        pool (runJobs kernel jobs queue results start).2 ∧ pool.Exited ∧
      pool.results = (runJobs kernel jobs queue results start).1 := by
  induction queue generalizing results start with
  | nil =>
      refine ⟨_, reaches_leave (.inr rfl) results start 0 (idle + 1), ?_, rfl⟩
      intro worker among
      exact List.eq_of_mem_replicate among
  | cons index rest ih =>
      have worked : Reaches machine jobs
          ⟨index :: rest, List.replicate (idle + 1) .idle, results, false⟩ start
          ⟨rest, afterOutcome ((jobs index).run kernel start).1 :: List.replicate idle .idle,
            Function.update results index (some ((jobs index).run kernel start).1), false⟩
          ((jobs index).run kernel start).2 := by
        refine Reaches.trans (Reaches.refl.step
          (Step.take index rest [] (List.replicate idle .idle) results start)) ?_
        refine (reaches_returns rest (List.replicate idle .idle) results false index
          (runs (jobs index) start)).step ?_
        exact Step.store rest [] (List.replicate idle .idle) results false index _ _
      cases ended : (jobs index).run kernel start with
      | mk outcome after =>
          rw [ended] at worked
          cases outcome with
          | ok value =>
              obtain ⟨pool, reached, exited, same⟩ :=
                ih (Function.update results index (some (.ok value))) after
              simp only [runJobs, ended]
              exact ⟨pool, worked.trans reached, exited, same⟩
          | error error =>
              simp only [runJobs, ended]
              refine ⟨_, (worked.step (Step.cancel rest [] (List.replicate idle .idle)
                (Function.update results index (some (.error error))) false after)).trans
                  (reaches_leave (.inl rfl) _ after 0 (idle + 1)), ?_, rfl⟩
              intro worker among
              exact List.eq_of_mem_replicate among

end Pool

/-- Every pool has one busy worker. -/
def Kernel.phased {Op : Type → Type u} {σ : Type} (kernel : Kernel Op σ) :
    Kernel (Phase Op) σ where
  exec := fun op start => match op with
    | .single op => kernel.exec op start
    | .spawn _ count jobs =>
        let ended := Pool.runJobs kernel jobs (List.range count) (fun _ => none) start
        ((List.range count).map ended.1, ended.2)

/-- A pool is not without workers. -/
def Phase.manned {Op : Type → Type u} {ρ : Type} : Phase Op ρ → Bool
  | .single _ => true
  | .spawn workers _ _ => decide (0 < workers)

theorem Kernel.phased_step {Op : Type → Type u} {σ ρ : Type} {kernel : Kernel Op σ}
    {machine : Machine Op σ}
    (steps : ∀ {κ : Type} (op : Op κ) (start : σ),
      machine.step op start (kernel.exec op start).1 (kernel.exec op start).2)
    {op : Phase Op ρ} (some_worker : op.manned = true) (start : σ) :
    machine.phased.step op start (kernel.phased.exec op start).1
      (kernel.phased.exec op start).2 := by
  cases op with
  | single op => exact steps op start
  | spawn workers count jobs =>
      have positive : 0 < workers := of_decide_eq_true some_worker
      obtain ⟨idle, rfl⟩ : ∃ idle, workers = idle + 1 := ⟨workers - 1, by omega⟩
      obtain ⟨pool, reached, exited, same⟩ := Pool.reaches_runJobs
        (fun program start => Task.returns_run_of steps program start) idle (List.range count)
        (fun _ => none) start
      refine ⟨pool, reached, exited, ?_⟩
      rw [same]
      rfl

namespace Task

variable {Op : Type → Type u} {σ α : Type} {machine : Machine Op σ}

/-- A run in which every pool has one busy worker. -/
def phasedRun (kernel : Kernel Op σ) (program : Task (Phase Op) α) (start : σ) : α × σ :=
  program.run kernel.phased start

/-- No pool of the run is without workers. -/
def manned (kernel : Kernel Op σ) (program : Task (Phase Op) α) (start : σ) : Bool :=
  program.passes kernel.phased (fun op _ => op.manned) start

theorem returns_phasedRun {kernel : Kernel Op σ}
    (steps : ∀ {ρ : Type} (op : Op ρ) (start : σ),
      machine.step op start (kernel.exec op start).1 (kernel.exec op start).2)
    (program : Task (Phase Op) α) (start : σ) (some_worker : program.manned kernel start = true) :
    program.Returns machine.phased start (program.phasedRun kernel start).1
      (program.phasedRun kernel start).2 :=
  returns_of_passes (fun _ here staffed => Kernel.phased_step steps staffed here) program start
    some_worker

end Task

end CrashLogic
