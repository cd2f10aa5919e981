import Worktree.CrashLogic.Pool
import Mathlib.Logic.Hydra
/-
What all schedules of a pool have in common.

Jobs are admitted in the order of the queue, so the jobs a cancelled pool leaves
out come after all it admitted. A pool always comes to an end: each step takes a
job or brings one worker closer to its exit.
-/

namespace CrashLogic

universe u

variable {Op : Type → Type u} {σ ε ρ : Type} {machine : Machine Op σ} {count : Nat}
  {jobs : Nat → Task Op (Except ε ρ)}

namespace Pool

/-! ### Jobs are admitted in order -/

/-- The queue still holds the jobs from `taken` on. -/
def Ordered (count taken : Nat) (pool : Pool Op ε ρ) : Prop :=
  taken ≤ count ∧ pool.queue = (List.range count).drop taken

theorem ordered_initial (workers count : Nat) :
    Ordered count 0 (Pool.initial workers count : Pool Op ε ρ) :=
  ⟨Nat.zero_le count, rfl⟩

theorem Ordered.step {taken : Nat} {pool pool' : Pool Op ε ρ} {start finish : σ}
    (ordered : Ordered count taken pool) (stepped : pool.Step machine jobs start pool' finish) :
    ∃ taken', Ordered count taken' pool' := by
  obtain ⟨bound, queued⟩ := ordered
  cases stepped with
  | take index rest before after results state =>
      dsimp only at queued
      have below : taken < count := by
        by_contra beyond
        rw [List.drop_eq_nil_of_le (by rw [List.length_range]; omega)] at queued
        cases queued
      rw [List.drop_eq_getElem_cons (by rw [List.length_range]; exact below)] at queued
      exact ⟨taken + 1, below, (List.cons.inj queued).2⟩
  | leave queue before after results cancelled state nothing => exact ⟨taken, bound, queued⟩
  | work queue before after results cancelled index op next start answer finish stepped =>
      exact ⟨taken, bound, queued⟩
  | store queue before after results cancelled index outcome state =>
      exact ⟨taken, bound, queued⟩
  | cancel queue before after results cancelled state => exact ⟨taken, bound, queued⟩

theorem Reaches.ordered {workers : Nat} {pool : Pool Op ε ρ} {start finish : σ}
    (reached : Reaches machine jobs (Pool.initial workers count) start pool finish) :
    ∃ taken, Ordered count taken pool := by
  induction reached with
  | refl => exact ⟨0, ordered_initial workers count⟩
  | step _ stepped ih =>
      obtain ⟨taken, ordered⟩ := ih
      exact ordered.step stepped

/-- Jobs that are not in the queue were admitted. -/
theorem Ordered.mem_queue {taken index : Nat} {pool : Pool Op ε ρ}
    (ordered : Ordered count taken pool) (bound : index < count) :
    index ∈ pool.queue ↔ taken ≤ index := by
  rw [ordered.2, List.mem_drop_iff_getElem]
  constructor
  · rintro ⟨place, below, same⟩
    rw [List.getElem_range] at same
    omega
  · intro later
    refine ⟨index - taken, ?_, ?_⟩
    · rw [List.length_range]
      omega
    · rw [List.getElem_range]
      omega

/-! ### Every schedule ends -/

/-- One worker after a step of its own, and before. -/
inductive Closer : Worker Op ε ρ → Worker Op ε ρ → Prop
  | work (index : Nat) {κ : Type} (op : Op κ) (next : κ → Task Op (Except ε ρ)) (answer : κ) :
      Closer (.running index (next answer)) (.running index (.call op next))
  | store (index : Nat) (outcome : Except ε ρ) :
      Closer (afterOutcome outcome) (.running index (.done outcome))
  | cancel : Closer .idle .failing
  | leave : Closer .exited .idle

theorem closer_wellFounded : WellFounded (@Closer Op ε ρ) := by
  have exited : Acc Closer (.exited : Worker Op ε ρ) :=
    .intro _ fun worker impossible => by cases impossible
  have idle : Acc Closer (.idle : Worker Op ε ρ) := by
    refine .intro _ fun worker closer => ?_
    cases closer
    exact exited
  have failing : Acc Closer (.failing : Worker Op ε ρ) := by
    refine .intro _ fun worker closer => ?_
    cases closer
    exact idle
  have running : ∀ (index : Nat) (program : Task Op (Except ε ρ)),
      Acc Closer (Worker.running index program) := by
    intro index program
    induction program with
    | done outcome =>
        refine .intro _ fun worker closer => ?_
        cases closer
        cases outcome with
        | ok value => exact idle
        | error error => exact failing
    | call op next ih =>
        refine .intro _ fun worker closer => ?_
        cases closer with
        | work index op next answer => exact ih answer
  constructor
  intro worker
  cases worker with
  | idle => exact idle
  | running index program => exact running index program
  | failing => exact failing
  | exited => exact exited

/-- The jobs still queued come first, then how far each worker is. -/
def remaining (pool : Pool Op ε ρ) : Nat × Multiset (Worker Op ε ρ) :=
  (pool.queue.length, pool.workers)

def Shorter : Nat × Multiset (Worker Op ε ρ) → Nat × Multiset (Worker Op ε ρ) → Prop :=
  Prod.Lex (· < ·) (Relation.CutExpand Closer)

theorem cutExpand_worker {before after : List (Worker Op ε ρ)} {new old : Worker Op ε ρ}
    (closer : Closer new old) :
    Relation.CutExpand Closer (↑(before ++ new :: after) : Multiset (Worker Op ε ρ))
      (↑(before ++ old :: after) : Multiset (Worker Op ε ρ)) := by
  refine ⟨{new}, old, ?_, ?_⟩
  · intro worker among
    rw [Multiset.mem_singleton.mp among]
    exact closer
  · simp only [← Multiset.coe_add, ← Multiset.cons_coe, ← Multiset.singleton_add]
    ac_rfl

theorem Step.shorter {pool pool' : Pool Op ε ρ} {start finish : σ}
    (stepped : pool.Step machine jobs start pool' finish) :
    Shorter pool'.remaining pool.remaining := by
  cases stepped with
  | take index rest before after results state =>
      exact Prod.Lex.left _ _ (Nat.lt_succ_self rest.length)
  | leave queue before after results cancelled state nothing =>
      exact Prod.Lex.right _ (cutExpand_worker .leave)
  | work queue before after results cancelled index op next start answer finish stepped =>
      exact Prod.Lex.right _ (cutExpand_worker (.work index op next answer))
  | store queue before after results cancelled index outcome state =>
      exact Prod.Lex.right _ (cutExpand_worker (.store index outcome))
  | cancel queue before after results cancelled state =>
      exact Prod.Lex.right _ (cutExpand_worker .cancel)

theorem shorter_wellFounded : WellFounded (@Shorter Op ε ρ) :=
  WellFounded.prod_lex Nat.lt_wfRel.wf closer_wellFounded.cutExpand

/-- While somebody has not left, somebody can go on. -/
theorem progress (total : ∀ {κ : Type} (op : Op κ) (start : σ),
      ∃ answer finish, machine.step op start answer finish) (pool : Pool Op ε ρ) (here : σ)
    (working : ¬ pool.Exited) :
    ∃ pool' finish, pool.Step machine jobs here pool' finish := by
  obtain ⟨queue, workers, results, cancelled⟩ := pool
  unfold Exited at working
  push Not at working
  obtain ⟨worker, among, present⟩ := working
  obtain ⟨before, after, rfl⟩ := List.append_of_mem among
  cases worker with
  | idle =>
      cases cancelled with
      | true => exact ⟨_, _, .leave queue before after results true here (.inl rfl)⟩
      | false =>
          cases queue with
          | nil => exact ⟨_, _, .leave [] before after results false here (.inr rfl)⟩
          | cons index rest => exact ⟨_, _, .take index rest before after results here⟩
  | running index program =>
      cases program with
      | done outcome => exact ⟨_, _, .store queue before after results cancelled index outcome here⟩
      | call op next =>
          obtain ⟨answer, finish, stepped⟩ := total op here
          exact ⟨_, _, .work queue before after results cancelled index op next here answer finish
            stepped⟩
  | failing => exact ⟨_, _, .cancel queue before after results cancelled here⟩
  | exited => exact absurd rfl present

/-- However a schedule began, it comes to the exit of every worker. -/
theorem completes (total : ∀ {κ : Type} (op : Op κ) (start : σ),
      ∃ answer finish, machine.step op start answer finish) (pool : Pool Op ε ρ) (here : σ) :
    ∃ pool' finish, pool.Reaches machine jobs here pool' finish ∧ pool'.Exited := by
  induction measured : pool.remaining using shorter_wellFounded.induction generalizing pool here with
  | _ _ ih =>
      by_cases exited : pool.Exited
      · exact ⟨pool, here, .refl, exited⟩
      · obtain ⟨middle, there, stepped⟩ := progress total pool here exited
        obtain ⟨last, finish, reached, exited⟩ :=
          ih _ (measured ▸ stepped.shorter) middle there rfl
        exact ⟨last, finish, (Reaches.refl.step stepped).trans reached, exited⟩

end Pool

namespace Contract

variable {allowed : {ρ : Type} → Op ρ → Prop} {known : σ → Prop}

/-- Jobs that end in one way each: the pool stores the outcomes of the first of
them, of all of them unless one of these failed. -/
theorem meets_spawn_settled (outcome : Nat → Except ε ρ) (workers : Nat)
    (some_worker : 0 < workers) (maintains : machine.Maintains allowed known)
    (settled : ∀ index, index < count →
      (jobs index).Upholds machine allowed known (· = outcome index))
    (start : σ) (knows : known start) :
    (Task.perform (Phase.spawn workers count jobs)).Meets machine.phased (fun _ _ => True)
      (fun results _ => ∃ taken, taken ≤ count ∧
        results = ((List.range count).map fun index =>
          if index < taken then some (outcome index) else none) ∧
        (taken = count ∨ ∃ failing error, failing < taken ∧ outcome failing = .error error))
      start := by
  rw [Task.meets_perform]
  refine ⟨trivial, ?_⟩
  rintro _ finish ⟨pool, reached, exited, rfl⟩
  have placed := placed_reaches (placed_initial workers count) reached
  have stored : ∀ index found, pool.results index = some found → found = outcome index := by
    intro index found same
    have contract := (ofUpholds (fun index found => found = outcome index) maintains
      settled).known_reaches (placed_initial workers count)
      (known_initial _ workers start fun _ _ => knows) reached
    exact (contract.finished index found same).2
  obtain ⟨taken, ordered⟩ := reached.ordered
  have nobody : pool.workers.filterMap Worker.index? = [] := by
    rw [List.filterMap_eq_nil_iff]
    intro worker among
    rw [exited worker among]
    rfl
  have indices : pool.indices = pool.queue := by
    rw [Pool.indices, nobody, List.nil_append]
  refine ⟨taken, ordered.1, ?_, ?_⟩
  · refine List.map_congr_left fun index among => ?_
    have bound := List.mem_range.mp among
    split
    · next below =>
        rcases placed.total index bound with waiting | ended
        · rw [indices, ordered.mem_queue bound] at waiting
          omega
        · obtain ⟨found, same⟩ := Option.isSome_iff_exists.mp ended
          rw [same, stored index found same]
    · next beyond =>
        apply placed.pending
        rw [indices, ordered.mem_queue bound]
        omega
  · by_cases all : taken = count
    · exact .inl all
    · right
      have left_one : (.exited : Worker Op ε ρ) ∈ pool.workers := by
        have positive : 0 < pool.workers.length := by
          rw [reached.workers_length]
          simpa [Pool.initial] using some_worker
        have first := List.getElem_mem positive
        rw [exited _ first] at first
        exact first
      have waiting : taken ∈ pool.queue :=
        (ordered.mem_queue (by have := ordered.1; omega)).mpr le_rfl
      rcases placed.exited left_one with empty | flagged
      · rw [empty] at waiting
        cases waiting
      · obtain ⟨failing, error, failed⟩ := placed.cancelled flagged
        have bound := placed.stored failing _ failed
        refine ⟨failing, error, ?_, (stored failing _ failed).symm⟩
        by_contra beyond
        have pending := placed.pending failing (by
          rw [indices, ordered.mem_queue bound]
          omega)
        rw [pending] at failed
        cases failed

end Contract

end CrashLogic
