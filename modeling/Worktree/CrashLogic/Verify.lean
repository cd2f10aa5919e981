import Worktree.CrashLogic.Task
/-
Rules for proving what every run of a program does.

`Meets` collects the two obligations of a program in one state: a guard at each
call a run comes to make, and a postcondition at each end. A crash condition is
the guard that holds before every call and survives each of its torn states.
-/

namespace CrashLogic

universe u

namespace Task

variable {Op : Type → Type u} {σ τ α β ε ε' : Type}

/-- Every call of every run meets the guard, and every end the postcondition. -/
def Meets (machine : Machine Op σ) (guard : {ρ : Type} → Op ρ → σ → Prop) :
    Task Op α → (α → σ → Prop) → σ → Prop
  | .done value, post, start => post value start
  | .call op next, post, start =>
      guard op start ∧ ∀ answer finish, machine.step op start answer finish →
        Meets machine guard (next answer) post finish

variable {machine : Machine Op σ} {guard : {ρ : Type} → Op ρ → σ → Prop}

@[simp] theorem meets_done (value : α) (post : α → σ → Prop) (start : σ) :
    (Task.done value : Task Op α).Meets machine guard post start ↔ post value start := Iff.rfl

@[simp] theorem meets_pure (value : α) (post : α → σ → Prop) (start : σ) :
    (pure value : Task Op α).Meets machine guard post start ↔ post value start := Iff.rfl

theorem meets_call {ρ : Type} (op : Op ρ) (next : ρ → Task Op α) (post : α → σ → Prop)
    (start : σ) :
    (Task.call op next).Meets machine guard post start ↔
      guard op start ∧ ∀ answer finish, machine.step op start answer finish →
        (next answer).Meets machine guard post finish := Iff.rfl

theorem meets_perform {ρ : Type} (op : Op ρ) (post : ρ → σ → Prop) (start : σ) :
    (perform op).Meets machine guard post start ↔
      guard op start ∧ ∀ answer finish, machine.step op start answer finish →
        post answer finish := Iff.rfl

theorem meets_bind (program : Task Op α) (after : α → Task Op β) (post : β → σ → Prop)
    (start : σ) :
    (program >>= after).Meets machine guard post start ↔
      program.Meets machine guard
        (fun value middle => (after value).Meets machine guard post middle) start := by
  induction program generalizing start with
  | done value => rfl
  | call op next ih =>
      simp only [bind_call, meets_call, ih]

theorem meets_map (program : Task Op α) (change : α → β) (post : β → σ → Prop) (start : σ) :
    (change <$> program).Meets machine guard post start ↔
      program.Meets machine guard (fun value => post (change value)) start := by
  rw [← bind_pure_comp, meets_bind]
  rfl

theorem Meets.mono {program : Task Op α} {post post' : α → σ → Prop} {start : σ}
    (meets : program.Meets machine guard post start)
    (weaker : ∀ value finish, post value finish → post' value finish) :
    program.Meets machine guard post' start := by
  induction program generalizing start with
  | done value => exact weaker value start meets
  | call op next ih =>
      exact ⟨meets.1, fun answer finish stepped => ih answer (meets.2 answer finish stepped)⟩

theorem Meets.guard_mono {guard' : {ρ : Type} → Op ρ → σ → Prop} {program : Task Op α}
    {post : α → σ → Prop} {start : σ} (meets : program.Meets machine guard post start)
    (weaker : ∀ {ρ : Type} (op : Op ρ) (here : σ), guard op here → guard' op here) :
    program.Meets machine guard' post start := by
  induction program generalizing start with
  | done value => exact meets
  | call op next ih =>
      exact ⟨weaker op start meets.1,
        fun answer finish stepped => ih answer (meets.2 answer finish stepped)⟩

theorem meets_true (program : Task Op α) (start : σ) :
    program.Meets machine (fun _ _ => True) (fun _ _ => True) start := by
  induction program generalizing start with
  | done value => trivial
  | call op next ih => exact ⟨trivial, fun answer finish _ => ih answer finish⟩

/-- What holds at every end by one argument holds together with any other. -/
theorem Meets.and {program : Task Op α} {post post' : α → σ → Prop} {start : σ}
    (first : program.Meets machine guard post start)
    (second : program.Meets machine (fun _ _ => True) post' start) :
    program.Meets machine guard (fun value finish => post value finish ∧ post' value finish)
      start := by
  induction program generalizing start with
  | done value => exact ⟨first, second⟩
  | call op next ih =>
      exact ⟨first.1, fun answer finish stepped =>
        ih answer (first.2 answer finish stepped) (second.2 answer finish stepped)⟩

/-- A machine with fewer answers meets what a machine with more does. -/
theorem Meets.machine_mono {machine' : Machine Op σ} {program : Task Op α}
    {post : α → σ → Prop} {start : σ} (meets : program.Meets machine guard post start)
    (fewer : ∀ {ρ : Type} (op : Op ρ) (here : σ) (answer : ρ) (finish : σ),
      machine'.step op here answer finish → machine.step op here answer finish) :
    program.Meets machine' guard post start := by
  induction program generalizing start with
  | done value => exact meets
  | call op next ih =>
      exact ⟨meets.1, fun answer finish stepped =>
        ih answer (meets.2 answer finish (fewer op start answer finish stepped))⟩

/-! ### What the obligations say about runs -/

theorem Meets.returns {program : Task Op α} {post : α → σ → Prop} {start finish : σ}
    {result : α} (meets : program.Meets machine guard post start)
    (returned : program.Returns machine start result finish) : post result finish := by
  induction program generalizing start with
  | done value =>
      obtain ⟨rfl, rfl⟩ := returned
      exact meets
  | call op next ih =>
      obtain ⟨answer, middle, stepped, rest⟩ := returned
      exact ih answer (meets.2 answer middle stepped) rest

theorem Meets.calls {program : Task Op α} {post : α → σ → Prop} {start here : σ} {κ : Type}
    {made : Op κ} (meets : program.Meets machine guard post start)
    (reached : program.Calls machine made start here) : guard made here := by
  induction program generalizing start with
  | done value => exact reached.elim
  | call op next ih =>
      rcases reached with ⟨⟨same, rfl⟩, rfl⟩ | ⟨answer, middle, stepped, rest⟩
      · cases same
        exact meets.1
      · exact ih answer (meets.2 answer middle stepped) rest

end Task

/-- The call changes nothing and cannot be torn, wherever it is made. -/
def Machine.Quiet {Op : Type → Type u} {σ : Type} (machine : Machine Op σ) {ρ : Type}
    (op : Op ρ) : Prop :=
  ∀ start, (∀ left, ¬ machine.torn op start left) ∧
    ∀ answer finish, machine.step op start answer finish → finish = start

/-- The guard admits every quiet call here. -/
def Machine.Admits {Op : Type → Type u} {σ : Type} (machine : Machine Op σ)
    (guard : {ρ : Type} → Op ρ → σ → Prop) (here : σ) : Prop :=
  ∀ {ρ : Type} (op : Op ρ), machine.Quiet op → guard op here

/-- `safe` holds here and in every state a crash inside the call may leave. -/
def Machine.Survives {Op : Type → Type u} {σ : Type} (machine : Machine Op σ) (safe : σ → Prop)
    {ρ : Type} (op : Op ρ) (here : σ) : Prop :=
  safe here ∧ ∀ left, machine.torn op here left → safe left

theorem Machine.admits_survives {Op : Type → Type u} {σ : Type} {machine : Machine Op σ}
    {safe : σ → Prop} {here : σ} (holds : safe here) :
    machine.Admits (machine.Survives safe) here :=
  fun _ quiet => ⟨holds, fun left torn => absurd torn ((quiet here).1 left)⟩

namespace Task

variable {Op : Type → Type u} {σ τ α β ε ε' : Type}
variable {machine : Machine Op σ} {guard : {ρ : Type} → Op ρ → σ → Prop}

/-- A crash condition that guards every call and holds at the end holds after
every crash. -/
theorem Meets.crashes {program : Task Op α} {safe : σ → Prop} {post : α → σ → Prop}
    {start left : σ} (meets : program.Meets machine (machine.Survives safe) post start)
    (ends : ∀ value finish, post value finish → safe finish)
    (crashed : program.Crashes machine start left) : safe left := by
  cases crashed with
  | before made here reached => exact (meets.calls reached).1
  | inside made here left reached torn => exact (meets.calls reached).2 left torn
  | after result finish returned => exact ends result left (meets.returns returned)

/-! ### Programs that may end with an error -/

theorem meets_except_bind (program : ExceptT ε (Task Op) α) (after : α → ExceptT ε (Task Op) β)
    (post : Except ε β → σ → Prop) (start : σ) :
    (program >>= after).run.Meets machine guard post start ↔
      program.run.Meets machine guard
        (fun result middle => match result with
          | .ok value => (after value).run.Meets machine guard post middle
          | .error error => post (.error error) middle) start := by
  rw [ExceptT.run_bind, meets_bind]
  refine iff_of_eq (congrArg (fun post => Meets machine guard program.run post start) ?_)
  funext result middle
  cases result with
  | ok value => rfl
  | error error => rfl

theorem returns_except_bind (program : ExceptT ε (Task Op) α) (after : α → ExceptT ε (Task Op) β)
    (start finish : σ) (result : Except ε β) :
    (program >>= after).run.Returns machine start result finish ↔
      (∃ error, program.run.Returns machine start (.error error) finish ∧ result = .error error) ∨
      ∃ value middle, program.run.Returns machine start (.ok value) middle ∧
        (after value).run.Returns machine middle result finish := by
  rw [ExceptT.run_bind, returns_bind]
  constructor
  · rintro ⟨first, middle, returned, rest⟩
    cases first with
    | ok value => exact .inr ⟨value, middle, returned, rest⟩
    | error error =>
        obtain ⟨rfl, rfl⟩ := rest
        exact .inl ⟨error, returned, rfl⟩
  · rintro (⟨error, returned, rfl⟩ | ⟨value, middle, returned, rest⟩)
    · exact ⟨.error error, finish, returned, rfl, rfl⟩
    · exact ⟨.ok value, middle, returned, rest⟩

theorem meets_except_lift (program : Task Op α) (post : Except ε α → σ → Prop) (start : σ) :
    (ExceptT.lift program : ExceptT ε (Task Op) α).run.Meets machine guard post start ↔
      program.Meets machine guard (fun value => post (.ok value)) start := by
  rw [ExceptT.run_lift, meets_map]

theorem meets_except_adapt (change : ε → ε') (program : ExceptT ε (Task Op) α)
    (post : Except ε' α → σ → Prop) (start : σ) :
    (ExceptT.adapt change program).run.Meets machine guard post start ↔
      program.run.Meets machine guard (fun result => post (result.mapError change)) start := by
  rw [ExceptT.run_adapt, meets_map]

/-! ### Programs with a state of their own besides the machine's -/

theorem meets_session_bind (program : ExceptT ε (StateT τ (Task Op)) α)
    (after : α → ExceptT ε (StateT τ (Task Op)) β) (own : τ)
    (post : Except ε β × τ → σ → Prop) (start : σ) :
    ((program >>= after).run.run own).Meets machine guard post start ↔
      (program.run.run own).Meets machine guard
        (fun result middle => match result with
          | (.ok value, own') => ((after value).run.run own').Meets machine guard post middle
          | (.error error, own') => post (.error error, own') middle) start := by
  rw [ExceptT.run_bind, StateT.run_bind, meets_bind]
  refine iff_of_eq (congrArg (fun post => Meets machine guard (program.run.run own) post start) ?_)
  funext result middle
  rcases result with ⟨value | error, own'⟩
  · rfl
  · rfl

theorem meets_session_lift (program : ExceptT ε (Task Op) α) (own : τ)
    (post : Except ε α × τ → σ → Prop) (start : σ) :
    ((ExceptT.mk (StateT.lift program.run) : ExceptT ε (StateT τ (Task Op)) α).run.run
        own).Meets machine guard post start ↔
      program.run.Meets machine guard (fun result => post (result, own)) start := by
  change ((StateT.lift program.run : StateT τ (Task Op) (Except ε α)).run own).Meets
    machine guard post start ↔ _
  rw [StateT.run_lift, meets_bind]
  rfl

theorem meets_session_get (own : τ) (post : Except ε τ × τ → σ → Prop) (start : σ) :
    ((get : ExceptT ε (StateT τ (Task Op)) τ).run.run own).Meets machine guard post start ↔
      post (.ok own, own) start := Iff.rfl

theorem meets_session_set (own own' : τ) (post : Except ε PUnit × τ → σ → Prop) (start : σ) :
    ((set own' : ExceptT ε (StateT τ (Task Op)) PUnit).run.run own).Meets machine guard post
      start ↔ post (.ok ⟨⟩, own') start := Iff.rfl

theorem meets_session_result (result : Except ε α) (own : τ)
    (post : Except ε α × τ → σ → Prop) (start : σ) :
    ((ExceptT.mk (pure result) : ExceptT ε (StateT τ (Task Op)) α).run.run own).Meets machine
      guard post start ↔ post (result, own) start := Iff.rfl

theorem meets_session_task (program : Task Op α) (own : τ) (post : Except ε α × τ → σ → Prop)
    (start : σ) :
    ((ExceptT.lift (StateT.lift program) : ExceptT ε (StateT τ (Task Op)) α).run.run own).Meets
      machine guard post start ↔
      program.Meets machine guard (fun value => post (.ok value, own)) start := by
  rw [ExceptT.run_lift, StateT.run_map, StateT.run_lift, meets_map, meets_bind]
  rfl

/-! ### Reading while the state is only known to satisfy a predicate -/

/-- Every call leaves the state alone, and whatever states satisfying `known`
the calls meet, the result satisfies `post`. -/
def Learns (machine : Machine Op σ) (known : σ → Prop) : Task Op α → (α → Prop) → Prop
  | .done value, post => post value
  | .call op next, post =>
      machine.Quiet op ∧ ∀ start answer finish, known start → machine.step op start answer finish →
        Learns machine known (next answer) post

theorem learns_bind (known : σ → Prop) (program : Task Op α) (after : α → Task Op β)
    (post : β → Prop) :
    (program >>= after).Learns machine known post ↔
      program.Learns machine known (fun value => (after value).Learns machine known post) := by
  induction program with
  | done value => rfl
  | call op next ih =>
      simp only [bind_call, Learns, ih]

theorem learns_map (known : σ → Prop) (program : Task Op α) (change : α → β) (post : β → Prop) :
    (change <$> program).Learns machine known post ↔
      program.Learns machine known (fun value => post (change value)) := by
  rw [← bind_pure_comp, learns_bind]
  rfl

theorem Learns.mono {known : σ → Prop} {program : Task Op α} {post post' : α → Prop}
    (learns : program.Learns machine known post) (weaker : ∀ value, post value → post' value) :
    program.Learns machine known post' := by
  induction program with
  | done value => exact weaker value learns
  | call op next ih =>
      exact ⟨learns.1, fun start answer finish knows stepped =>
        ih answer (learns.2 start answer finish knows stepped)⟩

theorem learns_except_bind (known : σ → Prop) (program : ExceptT ε (Task Op) α)
    (after : α → ExceptT ε (Task Op) β) (post : Except ε β → Prop) :
    (program >>= after).run.Learns machine known post ↔
      program.run.Learns machine known
        (fun result => match result with
          | .ok value => (after value).run.Learns machine known post
          | .error error => post (.error error)) := by
  rw [ExceptT.run_bind, learns_bind]
  refine iff_of_eq (congrArg (Learns machine known program.run) ?_)
  funext result
  cases result with
  | ok value => rfl
  | error error => rfl

theorem learns_except_lift (known : σ → Prop) (program : Task Op α)
    (post : Except ε α → Prop) :
    (ExceptT.lift program : ExceptT ε (Task Op) α).run.Learns machine known post ↔
      program.Learns machine known (fun value => post (.ok value)) := by
  rw [ExceptT.run_lift, learns_map]

/-- Reading in one state, with a guard that holds in that state. -/
theorem Learns.meets {program : Task Op α} {post : α → Prop} {start : σ}
    (learns : program.Learns machine (fun here => here = start) post)
    (admits : machine.Admits guard start) :
    program.Meets machine guard (fun value finish => finish = start ∧ post value) start := by
  induction program with
  | done value => exact ⟨rfl, learns⟩
  | call op next ih =>
      refine ⟨admits op learns.1, fun answer finish stepped => ?_⟩
      have same := (learns.1 start).2 answer finish stepped
      subst same
      exact ih answer (learns.2 finish answer finish rfl stepped)

end Task

/-- Every allowed call keeps what is known, torn or not. -/
structure Machine.Maintains {Op : Type → Type u} {σ : Type} (machine : Machine Op σ)
    (allowed : {ρ : Type} → Op ρ → Prop) (known : σ → Prop) : Prop where
  step : ∀ {ρ : Type} (op : Op ρ) (start : σ) (answer : ρ) (finish : σ), allowed op →
    known start → machine.step op start answer finish → known finish
  torn : ∀ {ρ : Type} (op : Op ρ) (start left : σ), allowed op →
    known start → machine.torn op start left → known left

theorem Machine.Maintains.and {Op : Type → Type u} {σ : Type} {machine : Machine Op σ}
    {allowed : {ρ : Type} → Op ρ → Prop} {known known' : σ → Prop}
    (first : machine.Maintains allowed known) (second : machine.Maintains (fun _ => True) known') :
    machine.Maintains allowed (fun here => known here ∧ known' here) where
  step := fun op start answer finish allows knows stepped =>
    ⟨first.step op start answer finish allows knows.1 stepped,
      second.step op start answer finish trivial knows.2 stepped⟩
  torn := fun op start left allows knows torn =>
    ⟨first.torn op start left allows knows.1 torn,
      second.torn op start left trivial knows.2 torn⟩

namespace Task

variable {Op : Type → Type u} {σ τ α β ε ε' : Type}
variable {machine : Machine Op σ} {guard : {ρ : Type} → Op ρ → σ → Prop}

/-! ### Changing the state inside an invariant -/

/-- Every call is quiet or allowed, and whatever states satisfying `known` the
calls meet, the result satisfies `post`. -/
def Upholds (machine : Machine Op σ) (allowed : {ρ : Type} → Op ρ → Prop) (known : σ → Prop) :
    Task Op α → (α → Prop) → Prop
  | .done value, post => post value
  | .call op next, post =>
      (machine.Quiet op ∨ allowed op) ∧
        ∀ start answer finish, known start → machine.step op start answer finish →
          Upholds machine allowed known (next answer) post

variable {allowed : {ρ : Type} → Op ρ → Prop} {known : σ → Prop}

theorem Upholds.mono {program : Task Op α} {post post' : α → Prop}
    (upholds : program.Upholds machine allowed known post)
    (weaker : ∀ value, post value → post' value) :
    program.Upholds machine allowed known post' := by
  induction program with
  | done value => exact weaker value upholds
  | call op next ih =>
      exact ⟨upholds.1, fun start answer finish knows stepped =>
        ih answer (upholds.2 start answer finish knows stepped)⟩

theorem Upholds.and {program : Task Op α} {post post' : α → Prop}
    (first : program.Upholds machine allowed known post)
    (second : program.Upholds machine allowed known post') :
    program.Upholds machine allowed known (fun value => post value ∧ post' value) := by
  induction program with
  | done value => exact ⟨first, second⟩
  | call op next ih =>
      exact ⟨first.1, fun start answer finish knows stepped =>
        ih answer (first.2 start answer finish knows stepped)
          (second.2 start answer finish knows stepped)⟩

/-- What a program promises anywhere it promises also inside the invariant. -/
theorem Upholds.alongside {allowed' : {ρ : Type} → Op ρ → Prop} {program : Task Op α}
    {post post' : α → Prop} (first : program.Upholds machine allowed known post)
    (second : program.Upholds machine allowed' (fun _ => True) post') :
    program.Upholds machine allowed known (fun value => post value ∧ post' value) := by
  induction program with
  | done value => exact ⟨first, second⟩
  | call op next ih =>
      exact ⟨first.1, fun start answer finish knows stepped =>
        ih answer (first.2 start answer finish knows stepped)
          (second.2 start answer finish trivial stepped)⟩

theorem Upholds.allowed_mono {allowed' : {ρ : Type} → Op ρ → Prop} {known' : σ → Prop}
    {program : Task Op α} {post : α → Prop}
    (upholds : program.Upholds machine allowed known post)
    (weaker : ∀ {ρ : Type} (op : Op ρ), allowed op → allowed' op)
    (stronger : ∀ here, known' here → known here) :
    program.Upholds machine allowed' known' post := by
  induction program with
  | done value => exact upholds
  | call op next ih =>
      exact ⟨upholds.1.imp_right (weaker op), fun start answer finish knows stepped =>
        ih answer (upholds.2 start answer finish (stronger start knows) stepped)⟩

theorem upholds_bind (program : Task Op α) (after : α → Task Op β) (post : β → Prop) :
    (program >>= after).Upholds machine allowed known post ↔
      program.Upholds machine allowed known
        (fun value => (after value).Upholds machine allowed known post) := by
  induction program with
  | done value => rfl
  | call op next ih => simp only [bind_call, Upholds, ih]

theorem upholds_map (program : Task Op α) (change : α → β) (post : β → Prop) :
    (change <$> program).Upholds machine allowed known post ↔
      program.Upholds machine allowed known (fun value => post (change value)) := by
  rw [← bind_pure_comp, upholds_bind]
  rfl

theorem upholds_except_bind (program : ExceptT ε (Task Op) α)
    (after : α → ExceptT ε (Task Op) β) (post : Except ε β → Prop) :
    (program >>= after).run.Upholds machine allowed known post ↔
      program.run.Upholds machine allowed known
        (fun result => match result with
          | .ok value => (after value).run.Upholds machine allowed known post
          | .error error => post (.error error)) := by
  rw [ExceptT.run_bind, upholds_bind]
  refine iff_of_eq (congrArg (Upholds machine allowed known program.run) ?_)
  funext result
  cases result with
  | ok value => rfl
  | error error => rfl

theorem upholds_except_lift (program : Task Op α) (post : Except ε α → Prop) :
    (ExceptT.lift program : ExceptT ε (Task Op) α).run.Upholds machine allowed known post ↔
      program.Upholds machine allowed known (fun value => post (.ok value)) := by
  rw [ExceptT.run_lift, upholds_map]

theorem upholds_except_adapt (change : ε → ε') (program : ExceptT ε (Task Op) α)
    (post : Except ε' α → Prop) :
    (ExceptT.adapt change program).run.Upholds machine allowed known post ↔
      program.run.Upholds machine allowed known (fun result => post (result.mapError change)) := by
  rw [ExceptT.run_adapt, upholds_map]

theorem Learns.upholds {program : Task Op α} {post : α → Prop}
    (learns : program.Learns machine known post) :
    program.Upholds machine allowed known post := by
  induction program with
  | done value => exact learns
  | call op next ih =>
      exact ⟨.inl learns.1, fun start answer finish knows stepped =>
        ih answer (learns.2 start answer finish knows stepped)⟩

/-- What is known where a program starts is known wherever it may stop. -/
theorem Upholds.meets {program : Task Op α} {post : α → Prop} {start : σ}
    (upholds : program.Upholds machine allowed known post)
    (maintains : machine.Maintains allowed known) (knows : known start)
    (admits : ∀ here, known here → machine.Admits guard here)
    (grants : ∀ {ρ : Type} (op : Op ρ) (here : σ), allowed op → known here → guard op here) :
    program.Meets machine guard (fun value finish => known finish ∧ post value) start := by
  induction program generalizing start with
  | done value => exact ⟨knows, upholds⟩
  | call op next ih =>
      rcases upholds.1 with quiet | allows
      · refine ⟨admits start knows op quiet, fun answer finish stepped => ?_⟩
        have same := (quiet start).2 answer finish stepped
        subst same
        exact ih answer (upholds.2 finish answer finish knows stepped) knows
      · refine ⟨grants op start allows knows, fun answer finish stepped => ?_⟩
        exact ih answer (upholds.2 start answer finish knows stepped)
          (maintains.step op start answer finish allows knows stepped)

/-- What every call keeps, every program keeps. -/
theorem maintains_meets (maintains : machine.Maintains (fun _ => True) known) (program : Task Op α)
    {start : σ} (knows : known start) :
    program.Meets machine (machine.Survives known) (fun _ finish => known finish) start := by
  induction program generalizing start with
  | done value => exact knows
  | call op next ih =>
      refine ⟨⟨knows, fun left torn => maintains.torn op start left trivial knows torn⟩,
        fun answer finish stepped => ih answer ?_⟩
      exact maintains.step op start answer finish trivial knows stepped

/-! ### Inside an invariant, with errors that say nothing -/

/-- Upholds what is known, and a value it ends with is good. -/
def Yields (machine : Machine Op σ) (allowed : {ρ : Type} → Op ρ → Prop) (known : σ → Prop)
    (program : ExceptT ε (Task Op) α) (good : α → Prop) : Prop :=
  program.run.Upholds machine allowed known fun result => ∀ value, result = .ok value → good value

theorem yields_pure {good : α → Prop} (value : α) (holds : good value) :
    Yields machine allowed known (pure value : ExceptT ε (Task Op) α) good := by
  intro found same
  cases same
  exact holds

theorem yields_throw {good : α → Prop} (error : ε) :
    Yields machine allowed known (throw error : ExceptT ε (Task Op) α) good := by
  intro found same
  cases same

theorem yields_result {good : α → Prop} (result : Except ε α)
    (holds : ∀ value, result = .ok value → good value) :
    Yields machine allowed known (ExceptT.mk (pure result) : ExceptT ε (Task Op) α) good :=
  holds

theorem Yields.mono {program : ExceptT ε (Task Op) α} {good good' : α → Prop}
    (yields : Yields machine allowed known program good)
    (better : ∀ value, good value → good' value) :
    Yields machine allowed known program good' :=
  Upholds.mono yields fun _ kept value same => better value (kept value same)

theorem Yields.and {program : ExceptT ε (Task Op) α} {good good' : α → Prop}
    (first : Yields machine allowed known program good)
    (second : Yields machine allowed known program good') :
    Yields machine allowed known program fun value => good value ∧ good' value :=
  (Upholds.and first second).mono fun _ both value same =>
    ⟨both.1 value same, both.2 value same⟩

theorem Yields.alongside {allowed' : {ρ : Type} → Op ρ → Prop} {program : ExceptT ε (Task Op) α}
    {good good' : α → Prop} (first : Yields machine allowed known program good)
    (second : Yields machine allowed' (fun _ => True) program good') :
    Yields machine allowed known program fun value => good value ∧ good' value :=
  (Upholds.alongside first second).mono fun _ both value same =>
    ⟨both.1 value same, both.2 value same⟩

theorem Yields.allowed_mono {allowed' : {ρ : Type} → Op ρ → Prop} {known' : σ → Prop}
    {program : ExceptT ε (Task Op) α} {good : α → Prop}
    (yields : Yields machine allowed known program good)
    (weaker : ∀ {ρ : Type} (op : Op ρ), allowed op → allowed' op)
    (stronger : ∀ here, known' here → known here) :
    Yields machine allowed' known' program good :=
  Upholds.allowed_mono yields weaker stronger

theorem Yields.bind {program : ExceptT ε (Task Op) α} {after : α → ExceptT ε (Task Op) β}
    {good : α → Prop} {good' : β → Prop} (first : Yields machine allowed known program good)
    (second : ∀ value, good value → Yields machine allowed known (after value) good') :
    Yields machine allowed known (program >>= after) good' := by
  unfold Yields
  rw [upholds_except_bind]
  refine Upholds.mono first fun result kept => ?_
  cases result with
  | ok value => exact second value (kept value rfl)
  | error error =>
      intro value same
      cases same

theorem yields_lift {program : Task Op α} {good : α → Prop}
    (upholds : program.Upholds machine allowed known good) :
    Yields machine allowed known (ExceptT.lift program : ExceptT ε (Task Op) α) good := by
  unfold Yields
  rw [upholds_except_lift]
  refine upholds.mono fun value holds found same => ?_
  cases same
  exact holds

theorem yields_adapt {change : ε → ε'} {program : ExceptT ε (Task Op) α} {good : α → Prop}
    (yields : Yields machine allowed known program good) :
    Yields machine allowed known (ExceptT.adapt change program) good := by
  unfold Yields
  rw [upholds_except_adapt]
  refine Upholds.mono yields fun result kept value same => ?_
  cases result with
  | ok found =>
      cases same
      exact kept value rfl
  | error error => cases same

theorem yields_forM {items : List β} {body : β → ExceptT ε (Task Op) PUnit}
    (round : ∀ item ∈ items, Yields machine allowed known (body item) fun _ => True) :
    Yields machine allowed known (items.forM body) fun _ => True := by
  induction items with
  | nil => exact yields_pure _ trivial
  | cons item rest ih =>
      refine Yields.bind (round item List.mem_cons_self) fun _ _ => ?_
      exact ih fun item among => round item (List.mem_cons_of_mem _ among)

/-- What every round finds holds of every item in the end. -/
theorem yields_each {items : List β} {body : β → ExceptT ε (Task Op) PUnit} {good : β → Prop}
    (round : ∀ item ∈ items, Yields machine allowed known (body item) fun _ => good item) :
    Yields machine allowed known (items.forM body) fun _ => ∀ item ∈ items, good item := by
  induction items with
  | nil => exact yields_pure _ fun _ impossible => by cases impossible
  | cons item rest ih =>
      refine Yields.bind (round item List.mem_cons_self) fun _ here => ?_
      refine (ih fun other among => round other (List.mem_cons_of_mem _ among)).mono
        fun _ later other among => ?_
      rcases List.mem_cons.mp among with rfl | further
      · exact here
      · exact later other further

end Task

end CrashLogic
