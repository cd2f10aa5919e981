import Worktree.CrashLogic.Verify
import Mathlib.Data.List.Nodup
import Mathlib.Logic.Function.Basic
/-
A bounded pool of workers over a shared queue of jobs.

A worker takes the next job unless the pool is cancelled, makes the calls of
the job one by one between those of the other workers, stores the outcome, and
cancels the pool when the outcome is an error. The rule at the end proves facts
about every interleaving from one argument for each job alone.
-/

namespace CrashLogic

universe u

inductive Worker (Op : Type → Type u) (ε ρ : Type)
  | idle
  | running (index : Nat) (program : Task Op (Except ε ρ))
  | failing
  | exited

def Worker.index? {Op : Type → Type u} {ε ρ : Type} : Worker Op ε ρ → Option Nat
  | .running index _ => some index
  | _ => none

structure Pool (Op : Type → Type u) (ε ρ : Type) where
  queue : List Nat
  workers : List (Worker Op ε ρ)
  results : Nat → Option (Except ε ρ)
  cancelled : Bool

namespace Pool

variable {Op : Type → Type u} {σ ε ρ : Type}

def initial (workers count : Nat) : Pool Op ε ρ :=
  { queue := List.range count
    workers := List.replicate workers .idle
    results := fun _ => none
    cancelled := false }

/-- What a worker becomes when it has stored the outcome of its job. -/
def afterOutcome : Except ε ρ → Worker Op ε ρ
  | .ok _ => .idle
  | .error _ => .failing

/-- One step of one worker. The queue and the cancellation flag are read
together, under the lock of the queue. -/
inductive Step (machine : Machine Op σ) (jobs : Nat → Task Op (Except ε ρ)) :
    Pool Op ε ρ → σ → Pool Op ε ρ → σ → Prop
  | take (index : Nat) (rest : List Nat) (before after : List (Worker Op ε ρ))
      (results : Nat → Option (Except ε ρ)) (state : σ) :
      Step machine jobs ⟨index :: rest, before ++ .idle :: after, results, false⟩ state
        ⟨rest, before ++ .running index (jobs index) :: after, results, false⟩ state
  | leave (queue : List Nat) (before after : List (Worker Op ε ρ))
      (results : Nat → Option (Except ε ρ)) (cancelled : Bool) (state : σ)
      (nothing : cancelled = true ∨ queue = []) :
      Step machine jobs ⟨queue, before ++ .idle :: after, results, cancelled⟩ state
        ⟨queue, before ++ .exited :: after, results, cancelled⟩ state
  | work (queue : List Nat) (before after : List (Worker Op ε ρ))
      (results : Nat → Option (Except ε ρ)) (cancelled : Bool) (index : Nat) {κ : Type}
      (op : Op κ) (next : κ → Task Op (Except ε ρ)) (start : σ) (answer : κ) (finish : σ)
      (stepped : machine.step op start answer finish) :
      Step machine jobs
        ⟨queue, before ++ .running index (.call op next) :: after, results, cancelled⟩ start
        ⟨queue, before ++ .running index (next answer) :: after, results, cancelled⟩ finish
  | store (queue : List Nat) (before after : List (Worker Op ε ρ))
      (results : Nat → Option (Except ε ρ)) (cancelled : Bool) (index : Nat)
      (outcome : Except ε ρ) (state : σ) :
      Step machine jobs
        ⟨queue, before ++ .running index (.done outcome) :: after, results, cancelled⟩ state
        ⟨queue, before ++ afterOutcome outcome :: after,
          Function.update results index (some outcome), cancelled⟩ state
  | cancel (queue : List Nat) (before after : List (Worker Op ε ρ))
      (results : Nat → Option (Except ε ρ)) (cancelled : Bool) (state : σ) :
      Step machine jobs ⟨queue, before ++ .failing :: after, results, cancelled⟩ state
        ⟨queue, before ++ .idle :: after, results, true⟩ state

/-- Finitely many steps. -/
inductive Reaches (machine : Machine Op σ) (jobs : Nat → Task Op (Except ε ρ))
    (pool : Pool Op ε ρ) (start : σ) : Pool Op ε ρ → σ → Prop
  | refl : Reaches machine jobs pool start pool start
  | step {middle last : Pool Op ε ρ} {here finish : σ}
      (reached : Reaches machine jobs pool start middle here)
      (stepped : Step machine jobs middle here last finish) :
      Reaches machine jobs pool start last finish

theorem Reaches.trans {machine : Machine Op σ} {jobs : Nat → Task Op (Except ε ρ)}
    {first second third : Pool Op ε ρ} {start middle finish : σ}
    (early : Reaches machine jobs first start second middle)
    (late : Reaches machine jobs second middle third finish) :
    Reaches machine jobs first start third finish := by
  induction late with
  | refl => exact early
  | step _ stepped ih => exact ih.step stepped

theorem Reaches.workers_length {machine : Machine Op σ} {jobs : Nat → Task Op (Except ε ρ)}
    {pool pool' : Pool Op ε ρ} {start finish : σ}
    (reached : Reaches machine jobs pool start pool' finish) :
    pool'.workers.length = pool.workers.length := by
  induction reached with
  | refl => rfl
  | step _ stepped ih =>
      rw [← ih]
      cases stepped <;> simp

/-- The indices somebody still has to finish. -/
def indices (pool : Pool Op ε ρ) : List Nat :=
  pool.workers.filterMap Worker.index? ++ pool.queue

def Exited (pool : Pool Op ε ρ) : Prop :=
  ∀ worker ∈ pool.workers, worker = .exited

end Pool

/-! ### Programs that also start pools -/

/-- A single call, or the jobs of a whole pool until every worker has left. -/
inductive Phase (Op : Type → Type u) : Type → Type (max u 1)
  | single {ρ : Type} (op : Op ρ) : Phase Op ρ
  | spawn {ε ρ : Type} (workers count : Nat) (jobs : Nat → Task Op (Except ε ρ)) :
      Phase Op (List (Option (Except ε ρ)))

/-- A program without pools as a program that might have started some. -/
def Task.phase {Op : Type → Type u} {α : Type} : Task Op α → Task (Phase Op) α
  | .done value => .done value
  | .call op next => .call (.single op) fun answer => (next answer).phase

def Machine.phasedStep {Op : Type → Type u} {σ : Type} (machine : Machine Op σ) :
    {ρ : Type} → Phase Op ρ → σ → ρ → σ → Prop
  | _, .single op, start, answer, finish => machine.step op start answer finish
  | _, .spawn workers count jobs, start, answer, finish =>
      ∃ pool, Pool.Reaches machine jobs (Pool.initial workers count) start pool finish ∧
        pool.Exited ∧ answer = (List.range count).map pool.results

/-- A crash while a pool is at work finds it after some of its steps, or inside
a call of one of its workers. -/
def Machine.phasedTorn {Op : Type → Type u} {σ : Type} (machine : Machine Op σ) :
    {ρ : Type} → Phase Op ρ → σ → σ → Prop
  | _, .single op, start, left => machine.torn op start left
  | _, .spawn (ε := ε) (ρ := ρ) workers count jobs, start, left =>
      ∃ (pool : Pool Op ε ρ) (here : σ),
        Pool.Reaches machine jobs (Pool.initial workers count) start pool here ∧
          (left = here ∨ ∃ (index : Nat) (κ : Type) (op : Op κ)
            (next : κ → Task Op (Except ε ρ)),
            .running index (.call op next) ∈ pool.workers ∧ machine.torn op here left)

def Machine.phased {Op : Type → Type u} {σ : Type} (machine : Machine Op σ) :
    Machine (Phase Op) σ where
  step := machine.phasedStep
  torn := machine.phasedTorn

section

variable {Op : Type → Type u} {σ ε ρ : Type} {machine machine' : Machine Op σ}

theorem Pool.Step.mono {jobs : Nat → Task Op (Except ε ρ)} {pool last : Pool Op ε ρ}
    {start finish : σ} (stepped : pool.Step machine jobs start last finish)
    (fewer : ∀ {κ : Type} (op : Op κ) (here : σ) (answer : κ) (after : σ),
      machine.step op here answer after → machine'.step op here answer after) :
    pool.Step machine' jobs start last finish := by
  cases stepped with
  | take index rest before after results => exact .take index rest before after results _
  | leave queue before after results cancelled state nothing =>
      exact .leave queue before after results cancelled _ nothing
  | work queue before after results cancelled index op next start answer finish worked =>
      exact .work queue before after results cancelled index op next _ answer _
        (fewer op _ answer _ worked)
  | store queue before after results cancelled index outcome =>
      exact .store queue before after results cancelled index outcome _
  | cancel queue before after results cancelled =>
      exact .cancel queue before after results cancelled _

theorem Pool.Reaches.keeps {jobs : Nat → Task Op (Except ε ρ)} {pool last : Pool Op ε ρ}
    {start finish : σ} {known : σ → Prop} (maintains : machine.Maintains (fun _ => True) known)
    (reached : pool.Reaches machine jobs start last finish) (knows : known start) :
    known finish := by
  induction reached with
  | refl => exact knows
  | step _ stepped ih =>
      cases stepped with
      | work queue before after results cancelled index op next start answer finish worked =>
          exact maintains.step op _ answer _ trivial ih worked
      | _ => exact ih

/-- What every call keeps, every pool keeps. -/
theorem Machine.Maintains.phased {known : σ → Prop}
    (maintains : machine.Maintains (fun _ => True) known) :
    machine.phased.Maintains (fun _ => True) known := by
  constructor
  · intro κ op start answer finish _ knows stepped
    cases op with
    | single op => exact maintains.step op start answer finish trivial knows stepped
    | spawn workers count jobs =>
        obtain ⟨pool, reached, _, _⟩ := stepped
        exact reached.keeps maintains knows
  · intro κ op start left _ knows torn
    cases op with
    | single op => exact maintains.torn op start left trivial knows torn
    | spawn workers count jobs =>
        obtain ⟨pool, here, reached, same | ⟨index, τ, op, next, working, torn⟩⟩ := torn
        · subst same
          exact reached.keeps maintains knows
        · exact maintains.torn op here left trivial (reached.keeps maintains knows) torn

end

namespace Task

variable {Op : Type → Type u} {σ α β : Type}

theorem meets_phase (machine : Machine Op σ) (guard : {ρ : Type} → Phase Op ρ → σ → Prop)
    (program : Task Op α) (post : α → σ → Prop) (start : σ) :
    program.phase.Meets machine.phased guard post start ↔
      program.Meets machine (fun op => guard (.single op)) post start := by
  induction program generalizing start with
  | done value => rfl
  | call op next ih =>
      simp only [phase, meets_call, ih]
      rfl

/-- A program without pools under a machine that has single calls as another has them. -/
theorem Meets.phase {whole : Machine (Phase Op) σ} {machine : Machine Op σ}
    {guard : {ρ : Type} → Phase Op ρ → σ → Prop} {program : Task Op α} {post : α → σ → Prop}
    {start : σ}
    (meets : program.Meets machine (fun op => guard (.single op)) post start)
    (singles : ∀ {κ : Type} (op : Op κ) (here : σ) (answer : κ) (finish : σ),
      whole.step (.single op) here answer finish → machine.step op here answer finish) :
    program.phase.Meets whole guard post start := by
  induction program generalizing start with
  | done value => exact meets
  | call op next ih =>
      exact ⟨meets.1, fun answer finish stepped =>
        ih answer (meets.2 answer finish (singles op start answer finish stepped))⟩

end Task

/-! ### One job among others -/

namespace Task

variable {Op : Type → Type u} {σ α β ε ε' : Type}

/-- The obligations of `Meets` when others may move the state along `rely`
before every call and after the last, and every own step moves it along
`promise`. -/
def Under (machine : Machine Op σ) (guard : {ρ : Type} → Op ρ → σ → Prop)
    (rely promise : σ → σ → Prop) : Task Op α → (α → σ → Prop) → σ → Prop
  | .done value, post, start => ∀ here, rely start here → post value here
  | .call op next, post, start =>
      ∀ here, rely start here → guard op here ∧
        ∀ answer finish, machine.step op here answer finish →
          promise here finish ∧ Under machine guard rely promise (next answer) post finish

variable {machine : Machine Op σ} {guard : {ρ : Type} → Op ρ → σ → Prop}
  {rely promise : σ → σ → Prop}

theorem Under.moved (trans : ∀ first second third, rely first second → rely second third →
      rely first third) {program : Task Op α} {post : α → σ → Prop} {start finish : σ}
    (under : program.Under machine guard rely promise post start) (moved : rely start finish) :
    program.Under machine guard rely promise post finish := by
  cases program with
  | done value => exact fun here again => under here (trans start finish here moved again)
  | call op next => exact fun here again => under here (trans start finish here moved again)

theorem Under.mono {program : Task Op α} {post post' : α → σ → Prop} {start : σ}
    (under : program.Under machine guard rely promise post start)
    (weaker : ∀ value finish, post value finish → post' value finish) :
    program.Under machine guard rely promise post' start := by
  induction program generalizing start with
  | done value => exact fun here moved => weaker value here (under here moved)
  | call op next ih =>
      intro here moved
      exact ⟨(under here moved).1, fun answer finish stepped =>
        ⟨((under here moved).2 answer finish stepped).1,
          ih answer ((under here moved).2 answer finish stepped).2⟩⟩

theorem Under.bind (refl : ∀ here, rely here here) {program : Task Op α}
    {after : α → Task Op β} {post : β → σ → Prop} {start : σ}
    (under : program.Under machine guard rely promise
      (fun value middle => (after value).Under machine guard rely promise post middle) start) :
    (program >>= after).Under machine guard rely promise post start := by
  induction program generalizing start with
  | done value => exact under start (refl start)
  | call op next ih =>
      intro here moved
      exact ⟨(under here moved).1, fun answer finish stepped =>
        ⟨((under here moved).2 answer finish stepped).1,
          ih answer ((under here moved).2 answer finish stepped).2⟩⟩

theorem Under.except_bind (refl : ∀ here, rely here here) {program : ExceptT ε (Task Op) α}
    {after : α → ExceptT ε (Task Op) β} {post : Except ε β → σ → Prop} {start : σ}
    (under : program.run.Under machine guard rely promise
      (fun result middle => match result with
        | .ok value => (after value).run.Under machine guard rely promise post middle
        | .error error => ∀ here, rely middle here → post (.error error) here) start) :
    (program >>= after).run.Under machine guard rely promise post start := by
  rw [ExceptT.run_bind]
  refine Under.bind refl (under.mono fun result middle kept => ?_)
  cases result with
  | ok value => exact kept
  | error error => exact kept

theorem Under.map {program : Task Op α} {change : α → β} {post : β → σ → Prop} {start : σ}
    (under : program.Under machine guard rely promise (fun value => post (change value)) start) :
    (change <$> program).Under machine guard rely promise post start := by
  induction program generalizing start with
  | done value => exact under
  | call op next ih =>
      intro here moved
      obtain ⟨guarded, steps⟩ := under here moved
      exact ⟨guarded, fun answer finish stepped =>
        ⟨(steps answer finish stepped).1, ih answer (steps answer finish stepped).2⟩⟩

theorem Under.except_adapt {program : ExceptT ε (Task Op) α} {change : ε → ε'}
    {post : Except ε' α → σ → Prop} {start : σ}
    (under : program.run.Under machine guard rely promise
      (fun result => post (result.mapError change)) start) :
    (ExceptT.adapt change program).run.Under machine guard rely promise post start := by
  rw [ExceptT.run_adapt]
  exact Under.map under

/-- The answer of a program whose errors are looked at. -/
theorem Under.lift_bind (refl : ∀ here, rely here here) {program : Task Op α}
    {after : α → ExceptT ε (Task Op) β} {post : Except ε β → σ → Prop} {start : σ}
    (under : program.Under machine guard rely promise
      (fun value middle => (after value).run.Under machine guard rely promise post middle) start) :
    (ExceptT.lift program >>= after).run.Under machine guard rely promise post start := by
  rw [ExceptT.run_bind, ExceptT.run_lift, bind_map_left]
  exact Under.bind refl under

/-- Any error will do, and the rest continues from what its start knows. -/
theorem Under.except_then (refl : ∀ here, rely here here) {program : ExceptT ε (Task Op) α}
    {after : α → ExceptT ε (Task Op) β} (good : α → σ → Prop) {post : Except ε β → σ → Prop}
    {start : σ} (under : program.run.Under machine guard rely promise
      (fun result here => ∀ value, result = .ok value → good value here) start)
    (rest : ∀ value here, good value here →
      (after value).run.Under machine guard rely promise post here)
    (fails : ∀ error here, post (.error error) here) :
    (program >>= after).run.Under machine guard rely promise post start := by
  refine Under.except_bind refl (under.mono fun result here told => ?_)
  cases result with
  | ok value => exact rest value here (told value rfl)
  | error error => exact fun later _ => fails error later

/-- What others and the program itself both keep holds at its end. -/
theorem Under.keeps (kept : σ → Prop)
    (stable : ∀ here finish, kept here → rely here finish → kept finish)
    (moves : ∀ here finish, kept here → promise here finish → kept finish)
    {program : Task Op α} {post : α → σ → Prop} {start : σ}
    (under : program.Under machine guard rely promise post start) (holds : kept start) :
    program.Under machine guard rely promise (fun value here => post value here ∧ kept here)
      start := by
  induction program generalizing start with
  | done value => exact fun here moved => ⟨under here moved, stable start here holds moved⟩
  | call op next ih =>
      intro here moved
      have still := stable start here holds moved
      obtain ⟨guarded, steps⟩ := under here moved
      refine ⟨guarded, fun answer finish stepped => ?_⟩
      have stepping := steps answer finish stepped
      exact ⟨stepping.1, ih answer stepping.2 (moves here finish still stepping.1)⟩

/-- With nobody else at work these are the obligations of the program alone. -/
theorem Under.meets (refl : ∀ here, rely here here) {program : Task Op α}
    {post : α → σ → Prop} {start : σ}
    (under : program.Under machine guard rely promise post start) :
    program.Meets machine guard post start := by
  induction program generalizing start with
  | done value => exact under start (refl start)
  | call op next ih =>
      obtain ⟨guarded, steps⟩ := under start (refl start)
      exact ⟨guarded, fun answer finish stepped => ih answer (steps answer finish stepped).2⟩

/-- Reading keeps what is known of the state, whatever the others do. -/
theorem Learns.under {program : Task Op α} {known : σ → Prop} {post : α → Prop} {start : σ}
    (learns : program.Learns machine known post) (knows : known start)
    (stable : ∀ here finish, known here → rely here finish → known finish)
    (quiet : ∀ here, promise here here)
    (admits : ∀ here, known here → machine.Admits guard here) :
    program.Under machine guard rely promise (fun value finish => known finish ∧ post value)
      start := by
  induction program generalizing start with
  | done value => exact fun here moved => ⟨stable start here knows moved, learns⟩
  | call op next ih =>
      intro here moved
      have still := stable start here knows moved
      refine ⟨admits here still op learns.1, fun answer finish stepped => ?_⟩
      have same := (learns.1 here).2 answer finish stepped
      subst same
      exact ⟨quiet finish, ih answer (learns.2 finish answer finish still stepped) still⟩

end Task

/-- What the jobs of a pool promise each other. The assertions of a job are
about its own part of the state, and the others leave that part alone. -/
structure Contract {Op : Type → Type u} {σ ε ρ : Type} (machine : Machine Op σ) (count : Nat)
    (jobs : Nat → Task Op (Except ε ρ)) where
  rely : Nat → σ → σ → Prop
  promise : Nat → σ → σ → Prop
  waiting : Nat → σ → Prop
  middle : Nat → σ → Prop
  ended : Nat → Except ε ρ → σ → Prop
  relyRefl : ∀ index here, rely index here here
  relyTrans : ∀ index first second third,
    rely index first second → rely index second third → rely index first third
  others : ∀ index other, index < count → other < count → index ≠ other →
    ∀ here finish, promise index here finish → rely other here finish
  waitingStable : ∀ index here finish,
    waiting index here → rely index here finish → waiting index finish
  middleStable : ∀ index here finish,
    middle index here → rely index here finish → middle index finish
  endedStable : ∀ index outcome here finish,
    ended index outcome here → rely index here finish → ended index outcome finish
  waitingMiddle : ∀ index here, waiting index here → middle index here
  endedMiddle : ∀ index outcome here, ended index outcome here → middle index here
  starts : ∀ index, index < count → ∀ here, waiting index here →
    (jobs index).Under machine
      (fun op here => middle index here ∧
        ∀ left, machine.torn op here left → middle index left ∧ promise index here left)
      (rely index) (promise index) (ended index) here

namespace Contract

variable {Op : Type → Type u} {σ ε ρ : Type} {machine : Machine Op σ} {count : Nat}
  {jobs : Nat → Task Op (Except ε ρ)}

def guard (contract : Contract machine count jobs) (index : Nat) {κ : Type} (op : Op κ)
    (here : σ) : Prop :=
  contract.middle index here ∧
    ∀ left, machine.torn op here left →
      contract.middle index left ∧ contract.promise index here left

/-- Which indices are waiting, running and finished. -/
structure Placed (count : Nat) (pool : Pool Op ε ρ) : Prop where
  nodup : pool.indices.Nodup
  bounded : ∀ index ∈ pool.indices, index < count
  pending : ∀ index ∈ pool.indices, pool.results index = none
  stored : ∀ index outcome, pool.results index = some outcome → index < count
  total : ∀ index, index < count → index ∈ pool.indices ∨ (pool.results index).isSome
  failing : .failing ∈ pool.workers → ∃ index error, pool.results index = some (.error error)
  cancelled : pool.cancelled = true → ∃ index error, pool.results index = some (.error error)
  exited : .exited ∈ pool.workers → pool.queue = [] ∨ pool.cancelled = true

/-- What is known of the state for each index. -/
structure Known (contract : Contract machine count jobs) (pool : Pool Op ε ρ) (here : σ) :
    Prop where
  queued : ∀ index ∈ pool.queue, contract.waiting index here
  running : ∀ index program, .running index program ∈ pool.workers →
    program.Under machine (contract.guard index) (contract.rely index)
      (contract.promise index) (contract.ended index) here
  finished : ∀ index outcome, pool.results index = some outcome →
    contract.ended index outcome here

theorem mem_replaced (old : Worker Op ε ρ) {worker new : Worker Op ε ρ}
    {before after : List (Worker Op ε ρ)} (member : worker ∈ before ++ new :: after) :
    worker = new ∨ worker ∈ before ++ old :: after := by
  rcases List.mem_append.mp member with early | late
  · exact .inr (List.mem_append_left _ early)
  · rcases List.mem_cons.mp late with same | later
    · exact .inl same
    · exact .inr (List.mem_append_right _ (List.mem_cons_of_mem _ later))

theorem indices_split (queue : List Nat) (before after : List (Worker Op ε ρ))
    (worker : Worker Op ε ρ) (results : Nat → Option (Except ε ρ)) (cancelled : Bool) :
    (⟨queue, before ++ worker :: after, results, cancelled⟩ : Pool Op ε ρ).indices =
      before.filterMap Worker.index? ++
        (worker.index?.toList ++ (after.filterMap Worker.index? ++ queue)) := by
  simp only [Pool.indices, List.filterMap_append, List.filterMap_cons]
  cases worker.index? with
  | none => simp
  | some index => simp

theorem placed_initial (workers count : Nat) :
    Placed count (Pool.initial workers count : Pool Op ε ρ) := by
  have idle : ∀ worker ∈ (Pool.initial workers count : Pool Op ε ρ).workers, worker = .idle :=
    fun worker member => List.eq_of_mem_replicate member
  have listed : (Pool.initial workers count : Pool Op ε ρ).indices = List.range count := by
    have nobody : (Pool.initial workers count : Pool Op ε ρ).workers.filterMap
        Worker.index? = [] := by
      rw [List.filterMap_eq_nil_iff]
      intro worker member
      rw [idle worker member]
      rfl
    rw [Pool.indices, nobody]
    rfl
  constructor
  · rw [listed]
    exact List.nodup_range
  · intro index member
    rw [listed] at member
    exact List.mem_range.mp member
  · exact fun index member => rfl
  · intro index outcome impossible
    cases impossible
  · intro index bound
    rw [listed]
    exact .inl (List.mem_range.mpr bound)
  · intro member
    cases idle _ member
  · intro impossible
    cases impossible
  · intro member
    cases idle _ member

/-- A step that keeps the indices and the results keeps their placing. -/
private theorem placed_same {count : Nat} {pool pool' : Pool Op ε ρ} (placed : Placed count pool)
    (same : pool'.indices.Perm pool.indices) (results : pool'.results = pool.results)
    (failing : .failing ∈ pool'.workers → .failing ∈ pool.workers)
    (cancelled : pool'.cancelled = true → ∃ index error, pool.results index = some (.error error))
    (exited : .exited ∈ pool'.workers → pool'.queue = [] ∨ pool'.cancelled = true) :
    Placed count pool' := by
  constructor
  · exact same.nodup_iff.mpr placed.nodup
  · exact fun index member => placed.bounded index (same.mem_iff.mp member)
  · intro index member
    rw [results]
    exact placed.pending index (same.mem_iff.mp member)
  · rw [results]
    exact placed.stored
  · intro index bound
    rw [results]
    exact (placed.total index bound).imp same.mem_iff.mpr id
  · rw [results]
    exact fun member => placed.failing (failing member)
  · rw [results]
    exact cancelled
  · exact exited

theorem placed_step {count : Nat} {pool pool' : Pool Op ε ρ} {start finish : σ}
    (placed : Placed count pool) (stepped : pool.Step machine jobs start pool' finish) :
    Placed count pool' := by
  cases stepped with
  | take index rest before after results state =>
      apply placed_same placed
      · simp only [indices_split, Worker.index?, Option.toList]
        apply List.Perm.append_left
        simp only [List.singleton_append, List.nil_append]
        exact List.perm_middle.symm
      · rfl
      · intro member
        rcases mem_replaced .idle member with impossible | old
        · cases impossible
        · exact old
      · intro impossible
        cases impossible
      · intro member
        rcases mem_replaced .idle member with impossible | old
        · cases impossible
        · rcases placed.exited old with impossible | impossible <;> cases impossible
  | leave queue before after results cancelled state nothing =>
      apply placed_same placed
      · simp only [indices_split, Worker.index?]
        exact .refl _
      · rfl
      · intro member
        rcases mem_replaced .idle member with impossible | old
        · cases impossible
        · exact old
      · exact placed.cancelled
      · exact fun _ => nothing.symm
  | work queue before after results cancelled index op next start answer finish stepped =>
      apply placed_same placed
      · simp only [indices_split, Worker.index?]
        exact .refl _
      · rfl
      · intro member
        rcases mem_replaced (.running index (.call op next)) member with impossible | old
        · cases impossible
        · exact old
      · exact placed.cancelled
      · intro member
        rcases mem_replaced (.running index (.call op next)) member with impossible | old
        · cases impossible
        · exact placed.exited old
  | cancel queue before after results cancelled state =>
      have failed := placed.failing (List.mem_append_right _ List.mem_cons_self)
      apply placed_same placed
      · simp only [indices_split, Worker.index?]
        exact .refl _
      · rfl
      · intro member
        rcases mem_replaced .failing member with impossible | old
        · cases impossible
        · exact old
      · exact fun _ => failed
      · exact fun _ => .inr rfl
  | store queue before after results cancelled index outcome state =>
      have split : (⟨queue, before ++ .running index (.done outcome) :: after, results,
          cancelled⟩ : Pool Op ε ρ).indices.Perm (index ::
          (⟨queue, before ++ Pool.afterOutcome outcome :: after,
            Function.update results index (some outcome), cancelled⟩ : Pool Op ε ρ).indices) := by
        have unplaced : (Pool.afterOutcome outcome : Worker Op ε ρ).index? = none := by
          cases outcome <;> rfl
        rw [indices_split, indices_split, unplaced]
        exact List.perm_middle
      have nodup := List.nodup_cons.mp (split.nodup_iff.mp placed.nodup)
      have remains : ∀ {error : ε} {other : Nat}, results other = some (.error error) →
          Function.update results index (some outcome) other = some (.error error) := by
        intro error other failed
        have different : other ≠ index := by
          intro same
          subst same
          have pending := placed.pending other (split.mem_iff.mpr List.mem_cons_self)
          exact absurd (pending.symm.trans failed) (by simp)
        rw [Function.update_of_ne different]
        exact failed
      constructor
      · exact nodup.2
      · exact fun other member =>
          placed.bounded other (split.mem_iff.mpr (List.mem_cons_of_mem _ member))
      · intro other member
        have different : other ≠ index := fun same => nodup.1 (same ▸ member)
        change Function.update results index (some outcome) other = none
        rw [Function.update_of_ne different]
        exact placed.pending other (split.mem_iff.mpr (List.mem_cons_of_mem _ member))
      · intro other stored found
        by_cases same : other = index
        · subst same
          exact placed.bounded other (split.mem_iff.mpr List.mem_cons_self)
        · change Function.update results index (some outcome) other = some stored at found
          rw [Function.update_of_ne same] at found
          exact placed.stored other stored found
      · intro other bound
        change _ ∨ (Function.update results index (some outcome) other).isSome
        by_cases same : other = index
        · subst same
          exact .inr (by rw [Function.update_self]; rfl)
        · rw [Function.update_of_ne same]
          rcases placed.total other bound with member | stored
          · rcases List.mem_cons.mp (split.mem_iff.mp member) with impossible | member
            · exact absurd impossible same
            · exact .inl member
          · exact .inr stored
      · intro member
        rcases mem_replaced (.running index (.done outcome)) member with mine | old
        · cases outcome with
          | ok value => cases mine
          | error error => exact ⟨index, error, Function.update_self ..⟩
        · obtain ⟨other, error, failed⟩ := placed.failing old
          exact ⟨other, error, remains failed⟩
      · intro flagged
        obtain ⟨other, error, failed⟩ := placed.cancelled flagged
        exact ⟨other, error, remains failed⟩
      · intro member
        rcases mem_replaced (.running index (.done outcome)) member with mine | old
        · cases outcome <;> cases mine
        · exact placed.exited old

theorem placed_reaches {count : Nat} {pool pool' : Pool Op ε ρ} {start finish : σ}
    (placed : Placed count pool) (reached : pool.Reaches machine jobs start pool' finish) :
    Placed count pool' := by
  induction reached with
  | refl => exact placed
  | step _ stepped ih => exact placed_step ih stepped

theorem known_initial (contract : Contract machine count jobs) (workers : Nat) (start : σ)
    (waiting : ∀ index, index < count → contract.waiting index start) :
    contract.Known (Pool.initial workers count) start := by
  constructor
  · exact fun index member => waiting index (List.mem_range.mp member)
  · intro index program member
    cases List.eq_of_mem_replicate member
  · intro index outcome impossible
    cases impossible

/-- Everybody relies on a step one running job takes. -/
theorem known_step (contract : Contract machine count jobs) {pool pool' : Pool Op ε ρ}
    {start finish : σ} (placed : Placed count pool) (known : contract.Known pool start)
    (stepped : pool.Step machine jobs start pool' finish) : contract.Known pool' finish := by
  cases stepped with
  | take index rest before after results state =>
      have waiting := known.queued index List.mem_cons_self
      have bound : index < count := placed.bounded index
        (List.mem_append_right _ List.mem_cons_self)
      constructor
      · exact fun other member => known.queued other (List.mem_cons_of_mem _ member)
      · intro other program member
        rcases mem_replaced .idle member with mine | old
        · cases mine
          exact contract.starts index bound _ waiting
        · exact known.running other program old
      · exact known.finished
  | leave queue before after results cancelled state nothing =>
      refine ⟨known.queued, fun other program member => ?_, known.finished⟩
      rcases mem_replaced .idle member with impossible | old
      · cases impossible
      · exact known.running other program old
  | work queue before after results cancelled index op next start answer finish stepped =>
      have mine := known.running index (.call op next)
        (List.mem_append_right _ List.mem_cons_self)
      have stepping := (mine start (contract.relyRefl index start)).2 answer finish stepped
      have nodup := placed.nodup
      rw [indices_split] at nodup
      have moved := List.nodup_cons.mp (List.nodup_middle.mp nodup)
      have bound : index < count := by
        apply placed.bounded
        rw [indices_split]
        exact List.mem_append_right _ List.mem_cons_self
      have relies : ∀ other, other < count → other ≠ index → contract.rely other start finish :=
        fun other below different =>
          contract.others index other bound below (Ne.symm different) start finish stepping.1
      have among : ∀ other, other ∈ before.filterMap Worker.index? ++
          (after.filterMap Worker.index? ++ queue) → contract.rely other start finish := by
        intro other member
        refine relies other (placed.bounded other ?_) (fun same => moved.1 (same ▸ member))
        rw [indices_split]
        exact List.perm_middle.mem_iff.mpr (List.mem_cons_of_mem _ member)
      constructor
      · intro other member
        exact contract.waitingStable other start finish (known.queued other member)
          (among other (List.mem_append_right _ (List.mem_append_right _ member)))
      · intro other program member
        rcases List.mem_append.mp member with early | late
        · exact (known.running other program (List.mem_append_left _ early)).moved
            (contract.relyTrans other)
            (among other (List.mem_append_left _ (List.mem_filterMap.mpr ⟨_, early, rfl⟩)))
        · rcases List.mem_cons.mp late with here | later
          · cases here
            exact stepping.2
          · exact (known.running other program
              (List.mem_append_right _ (List.mem_cons_of_mem _ later))).moved
              (contract.relyTrans other)
              (among other (List.mem_append_right _
                (List.mem_append_left _ (List.mem_filterMap.mpr ⟨_, later, rfl⟩))))
      · intro other outcome finished
        refine contract.endedStable other outcome start finish
          (known.finished other outcome finished)
          (relies other (placed.stored other outcome finished) ?_)
        rintro rfl
        have pending := placed.pending other (by
          rw [indices_split]
          exact List.mem_append_right _ List.mem_cons_self)
        exact absurd (pending.symm.trans finished) (by simp)
  | store queue before after results cancelled index outcome state =>
      have mine := known.running index (.done outcome)
        (List.mem_append_right _ List.mem_cons_self)
      constructor
      · exact known.queued
      · intro other program member
        rcases mem_replaced (.running index (.done outcome)) member with new | old
        · cases outcome <;> cases new
        · exact known.running other program old
      · intro other stored found
        change Function.update results index (some outcome) other = some stored at found
        by_cases same : other = index
        · subst same
          rw [Function.update_self] at found
          cases found
          exact mine _ (contract.relyRefl other _)
        · rw [Function.update_of_ne same] at found
          exact known.finished other stored found
  | cancel queue before after results cancelled state =>
      refine ⟨known.queued, fun other program member => ?_, known.finished⟩
      rcases mem_replaced .failing member with impossible | old
      · cases impossible
      · exact known.running other program old

theorem known_reaches (contract : Contract machine count jobs) {pool pool' : Pool Op ε ρ}
    {start finish : σ} (placed : Placed count pool) (known : contract.Known pool start)
    (reached : pool.Reaches machine jobs start pool' finish) : contract.Known pool' finish := by
  induction reached with
  | refl => exact known
  | step reached stepped ih =>
      exact contract.known_step (placed_reaches placed reached) ih stepped

/-- Whoever looks at a pool at work finds every job in its middle. -/
theorem Known.middles (contract : Contract machine count jobs) {pool : Pool Op ε ρ} {here : σ}
    (placed : Placed count pool) (known : contract.Known pool here) (index : Nat)
    (bound : index < count) : contract.middle index here := by
  rcases placed.total index bound with member | stored
  · rcases List.mem_append.mp member with running | queued
    · obtain ⟨worker, among, found⟩ := List.mem_filterMap.mp running
      cases worker with
      | running other program =>
          cases found
          have under := known.running index program among
          cases program with
          | done outcome =>
              exact contract.endedMiddle index outcome here
                (under here (contract.relyRefl index here))
          | call op next => exact (under here (contract.relyRefl index here)).1.1
      | idle => cases found
      | failing => cases found
      | exited => cases found
    · exact contract.waitingMiddle index here (known.queued index queued)
  · obtain ⟨outcome, finished⟩ := Option.isSome_iff_exists.mp stored
    exact contract.endedMiddle index outcome here (known.finished index outcome finished)

/-- A pool whose jobs keep a contract: the obligations of its `spawn`. -/
theorem meets_spawn (contract : Contract machine count jobs) (workers : Nat)
    (some_worker : 0 < workers) (guard : {κ : Type} → Phase Op κ → σ → Prop)
    (post : List (Option (Except ε ρ)) → σ → Prop) (start : σ)
    (waiting : ∀ index, index < count → contract.waiting index start)
    (guarded : guard (.spawn workers count jobs) start)
    (atEnd : ∀ (results : Nat → Option (Except ε ρ)) (finish : σ),
      (∀ index, index < count →
        (∃ outcome, results index = some outcome ∧ contract.ended index outcome finish) ∨
          (results index = none ∧ contract.waiting index finish ∧
            ∃ other error, other < count ∧ results other = some (.error error))) →
      post ((List.range count).map results) finish) :
    (Task.perform (Phase.spawn workers count jobs)).Meets machine.phased guard post start := by
  rw [Task.meets_perform]
  refine ⟨guarded, ?_⟩
  rintro _ finish ⟨pool, reached, exited, rfl⟩
  have placed := placed_reaches (placed_initial workers count) reached
  have known := contract.known_reaches (placed_initial workers count)
    (contract.known_initial workers start waiting) reached
  apply atEnd
  intro index bound
  rcases placed.total index bound with member | stored
  · right
    have nobody : pool.workers.filterMap Worker.index? = [] := by
      rw [List.filterMap_eq_nil_iff]
      intro worker among
      rw [exited worker among]
      rfl
    rw [Pool.indices, nobody, List.nil_append] at member
    refine ⟨placed.pending index (List.mem_append_right _ member),
      known.queued index member, ?_⟩
    have left_one : (.exited : Worker Op ε ρ) ∈ pool.workers := by
      have counted := reached.workers_length
      have positive : 0 < pool.workers.length := by
        rw [counted]
        simpa [Pool.initial] using some_worker
      have first := List.getElem_mem positive
      rw [exited _ first] at first
      exact first
    rcases placed.exited left_one with empty | flagged
    · rw [empty] at member
      cases member
    · obtain ⟨other, error, failed⟩ := placed.cancelled flagged
      exact ⟨other, error, placed.stored other _ failed, failed⟩
  · left
    obtain ⟨outcome, finished⟩ := Option.isSome_iff_exists.mp stored
    exact ⟨outcome, finished, known.finished index outcome finished⟩

/-- Every crash of a pool at work leaves every job in its middle. -/
theorem torn_spawn (contract : Contract machine count jobs) (workers : Nat) (start left : σ)
    (waiting : ∀ index, index < count → contract.waiting index start)
    (torn : machine.phased.torn (.spawn workers count jobs) start left) (index : Nat)
    (bound : index < count) : contract.middle index left := by
  have placed : Placed count (Pool.initial workers count : Pool Op ε ρ) :=
    placed_initial workers count
  have known := contract.known_initial workers start waiting
  obtain ⟨pool, here, reached, torn⟩ := torn
  have known := contract.known_reaches placed known reached
  have placed := placed_reaches placed reached
  rcases torn with rfl | ⟨worker, κ, op, next, working, torn⟩
  · exact known.middles contract placed index bound
  · have under := known.running worker _ working
    have guarded := (under here (contract.relyRefl worker here)).1.2 left torn
    by_cases same : index = worker
    · subst same
      exact guarded.1
    · have worker_bound : worker < count := by
        apply placed.bounded
        exact List.mem_append_left _ (List.mem_filterMap.mpr ⟨_, working, rfl⟩)
      exact contract.middleStable index here left (known.middles contract placed index bound)
        (contract.others worker index worker_bound bound (Ne.symm same) here left guarded.2)

end Contract

/-! ### Jobs that share an invariant -/

namespace Task

variable {Op : Type → Type u} {σ α : Type} {machine : Machine Op σ}
  {allowed : {ρ : Type} → Op ρ → Prop} {known : σ → Prop}

theorem Upholds.under {program : Task Op α} {post : α → Prop} {start : σ}
    (upholds : program.Upholds machine allowed known post)
    (maintains : machine.Maintains allowed known) (knows : known start) :
    program.Under machine
      (fun op here => known here ∧ ∀ left, machine.torn op here left → known left ∧
        (known here → known left))
      (fun here finish => known here → known finish)
      (fun here finish => known here → known finish)
      (fun value here => known here ∧ post value) start := by
  induction program generalizing start with
  | done value => exact fun here moved => ⟨moved knows, upholds⟩
  | call op next ih =>
      intro here moved
      have still := moved knows
      rcases upholds.1 with quiet | allows
      · refine ⟨⟨still, fun left torn => absurd torn ((quiet here).1 left)⟩,
          fun answer finish stepped => ?_⟩
        have same := (quiet here).2 answer finish stepped
        subst same
        exact ⟨id, ih answer (upholds.2 finish answer finish still stepped) still⟩
      · refine ⟨⟨still, fun left torn => ?_⟩, fun answer finish stepped => ?_⟩
        · have kept := maintains.torn op here left allows still torn
          exact ⟨kept, fun _ => kept⟩
        · have kept := maintains.step op here answer finish allows still stepped
          exact ⟨fun _ => kept, ih answer (upholds.2 here answer finish still stepped) kept⟩

/-- What the allowed calls and the others keep is kept, whoever is at work. -/
theorem Upholds.under_keeps {guard : {ρ : Type} → Op ρ → σ → Prop} {rely promise : σ → σ → Prop}
    {kept : σ → Prop} {program : Task Op α} {post : α → Prop} {start : σ}
    (upholds : program.Upholds machine allowed (fun _ => True) post)
    (free : ∀ {ρ : Type} (op : Op ρ) (here : σ),
      (∀ left, machine.torn op here left → promise here left) → guard op here)
    (still : ∀ here, promise here here)
    (stable : ∀ here finish, kept here → rely here finish → kept finish)
    (moves : ∀ {ρ : Type} (op : Op ρ) (here : σ), allowed op → kept here →
      (∀ left, machine.torn op here left → promise here left) ∧
        ∀ answer finish, machine.step op here answer finish →
          promise here finish ∧ kept finish)
    (holds : kept start) :
    program.Under machine guard rely promise (fun value here => kept here ∧ post value)
      start := by
  induction program generalizing start with
  | done value => exact fun here moved => ⟨stable start here holds moved, upholds⟩
  | call op next ih =>
      intro here moved
      have knows := stable start here holds moved
      rcases upholds.1 with quiet | allows
      · refine ⟨free op here fun left torn => absurd torn ((quiet here).1 left),
          fun answer finish stepped => ?_⟩
        have same := (quiet here).2 answer finish stepped
        subst same
        exact ⟨still finish, ih answer (upholds.2 finish answer finish trivial stepped) knows⟩
      · obtain ⟨torn, steps⟩ := moves op here allows knows
        refine ⟨free op here torn, fun answer finish stepped => ?_⟩
        obtain ⟨promised, kept⟩ := steps answer finish stepped
        exact ⟨promised, ih answer (upholds.2 here answer finish trivial stepped) kept⟩

end Task

namespace Contract

variable {Op : Type → Type u} {σ ε ρ : Type} {machine : Machine Op σ} {count : Nat}
  {jobs : Nat → Task Op (Except ε ρ)} {allowed : {ρ : Type} → Op ρ → Prop} {known : σ → Prop}

/-- Jobs that all uphold what is known uphold it together. -/
def ofUpholds (post : Nat → Except ε ρ → Prop) (maintains : machine.Maintains allowed known)
    (upholds : ∀ index, index < count →
      (jobs index).Upholds machine allowed known (post index)) :
    Contract machine count jobs where
  rely := fun _ here finish => known here → known finish
  promise := fun _ here finish => known here → known finish
  waiting := fun _ => known
  middle := fun _ => known
  ended := fun index outcome here => known here ∧ post index outcome
  relyRefl := fun _ _ => id
  relyTrans := fun _ _ _ _ first second knows => second (first knows)
  others := fun _ _ _ _ _ _ _ kept => kept
  waitingStable := fun _ _ _ knows moved => moved knows
  middleStable := fun _ _ _ knows moved => moved knows
  endedStable := fun _ _ _ _ ended moved => ⟨moved ended.1, ended.2⟩
  waitingMiddle := fun _ _ => id
  endedMiddle := fun _ _ _ ended => ended.1
  starts := fun index bound _ knows => (upholds index bound).under maintains knows

/-- The pool keeps what its jobs keep, and each outcome is one of its job. -/
theorem meets_spawn_upholds (post : Nat → Except ε ρ → Prop) (workers : Nat)
    (some_worker : 0 < workers) (maintains : machine.Maintains allowed known)
    (upholds : ∀ index, index < count →
      (jobs index).Upholds machine allowed known (post index))
    (guard : {κ : Type} → Phase Op κ → σ → Prop) (start : σ) (knows : known start)
    (guarded : (∀ left, machine.phased.torn (.spawn workers count jobs) start left →
      0 < count → known left) → guard (.spawn workers count jobs) start)
    (nonempty : 0 < count) :
    (Task.perform (Phase.spawn workers count jobs)).Meets machine.phased guard
      (fun results finish => known finish ∧
        ∃ stored : Nat → Option (Except ε ρ), results = (List.range count).map stored ∧
          ∀ index, index < count → ∀ outcome, stored index = some outcome →
            post index outcome) start := by
  apply (ofUpholds post maintains upholds).meets_spawn workers some_worker
  · exact fun _ _ => knows
  · apply guarded
    intro left torn positive
    exact (ofUpholds post maintains upholds).torn_spawn workers start left
      (fun _ _ => knows) torn 0 positive
  · intro stored finish each
    refine ⟨?_, stored, rfl, fun index bound outcome found => ?_⟩
    · rcases each 0 nonempty with ⟨_, _, ended⟩ | ⟨_, waiting, _⟩
      · exact ended.1
      · exact waiting
    · rcases each index bound with ⟨other, same, ended⟩ | ⟨missing, _, _⟩
      · rw [found] at same
        cases same
        exact ended.2
      · rw [found] at missing
        cases missing

end Contract

end CrashLogic
