import Worktree.CrashLogic.Pool
/-
What the result of a program is whatever its calls answer, and runs in which
certain answers never come.
-/

namespace CrashLogic

universe u

/-- The machine without the steps that are mishaps. -/
def Machine.without {Op : Type → Type u} {σ : Type} (machine : Machine Op σ)
    (mishap : {ρ : Type} → Op ρ → σ → ρ → σ → Prop) : Machine Op σ where
  step := fun op start answer finish =>
    machine.step op start answer finish ∧ ¬ mishap op start answer finish
  torn := machine.torn

namespace Task

variable {Op : Type → Type u} {σ τ α β ε ε' : Type} {machine : Machine Op σ}

theorem Meets.without {mishap : {ρ : Type} → Op ρ → σ → ρ → σ → Prop}
    {guard : {ρ : Type} → Op ρ → σ → Prop} {program : Task Op α} {post : α → σ → Prop} {start : σ}
    (meets : program.Meets machine guard post start) :
    program.Meets (machine.without mishap) guard post start :=
  meets.machine_mono fun _ _ _ _ stepped => stepped.1

/-- The result satisfies `post`, whatever the calls answer. -/
def Ends : Task Op α → (α → Prop) → Prop
  | .done value, post => post value
  | .call _ next, post => ∀ answer, Ends (next answer) post

theorem ends_bind (program : Task Op α) (after : α → Task Op β) (post : β → Prop) :
    (program >>= after).Ends post ↔ program.Ends fun value => (after value).Ends post := by
  induction program with
  | done value => rfl
  | call op next ih => simp only [bind_call, Ends, ih]

theorem ends_map (program : Task Op α) (change : α → β) (post : β → Prop) :
    (change <$> program).Ends post ↔ program.Ends fun value => post (change value) := by
  rw [← bind_pure_comp, ends_bind]
  rfl

theorem Ends.mono {program : Task Op α} {post post' : α → Prop} (ends : program.Ends post)
    (weaker : ∀ value, post value → post' value) : program.Ends post' := by
  induction program with
  | done value => exact weaker value ends
  | call op next ih => exact fun answer => ih answer (ends answer)

theorem ends_any {program : Task Op α} {post : α → Prop} (holds : ∀ value, post value) :
    program.Ends post := by
  induction program with
  | done value => exact holds value
  | call op next ih => exact fun answer => ih answer

theorem Ends.phase {program : Task Op α} {post : α → Prop} (ends : program.Ends post) :
    program.phase.Ends post := by
  induction program with
  | done value => exact ends
  | call op next ih => exact fun answer => ih answer (ends answer)

theorem Ends.meets {program : Task Op α} {post : α → Prop} (ends : program.Ends post)
    (start : σ) :
    program.Meets machine (fun _ _ => True) (fun value _ => post value) start := by
  induction program generalizing start with
  | done value => exact ends
  | call op next ih => exact ⟨trivial, fun answer finish _ => ih answer (ends answer) finish⟩

/-! ### Errors -/

/-- Every error of the program is of this kind. -/
def Raises (program : ExceptT ε (Task Op) α) (kind : ε → Prop) : Prop :=
  program.run.Ends fun result => ∀ error, result = .error error → kind error

theorem raises_pure {kind : ε → Prop} (value : α) :
    Raises (pure value : ExceptT ε (Task Op) α) kind := by
  intro error same
  cases same

theorem raises_throw {kind : ε → Prop} {error : ε} (holds : kind error) :
    Raises (throw error : ExceptT ε (Task Op) α) kind := by
  intro found same
  cases same
  exact holds

theorem raises_result {kind : ε → Prop} {result : Except ε α}
    (holds : ∀ error, result = .error error → kind error) :
    Raises (ExceptT.mk (pure result) : ExceptT ε (Task Op) α) kind :=
  holds

theorem raises_lift {kind : ε → Prop} (program : Task Op α) :
    Raises (ExceptT.lift program : ExceptT ε (Task Op) α) kind := by
  unfold Raises
  rw [ExceptT.run_lift, ends_map]
  exact ends_any fun value error same => by cases same

theorem raises_adapt {kind : ε' → Prop} {change : ε → ε'} {program : ExceptT ε (Task Op) α}
    (holds : ∀ error, kind (change error)) : Raises (ExceptT.adapt change program) kind := by
  unfold Raises
  rw [ExceptT.run_adapt, ends_map]
  refine ends_any fun result error same => ?_
  cases result with
  | ok value => cases same
  | error found =>
      cases same
      exact holds found

theorem Raises.bind {kind : ε → Prop} {program : ExceptT ε (Task Op) α}
    {after : α → ExceptT ε (Task Op) β} (first : Raises program kind)
    (second : ∀ value, Raises (after value) kind) : Raises (program >>= after) kind := by
  unfold Raises
  rw [ExceptT.run_bind, ends_bind]
  refine Ends.mono first fun result holds => ?_
  cases result with
  | ok value => exact second value
  | error error =>
      intro found same
      cases same
      exact holds error rfl

theorem raises_ite {kind : ε → Prop} {condition : Prop} [Decidable condition]
    {first second : ExceptT ε (Task Op) α} (yes : condition → Raises first kind)
    (no : ¬ condition → Raises second kind) :
    Raises (if condition then first else second) kind := by
  split
  · next holds => exact yes holds
  · next fails => exact no fails

theorem raises_forM {kind : ε → Prop} {items : List β} {body : β → ExceptT ε (Task Op) PUnit}
    (round : ∀ item ∈ items, Raises (body item) kind) : Raises (items.forM body) kind := by
  induction items with
  | nil => exact raises_pure _
  | cons item rest ih =>
      exact Raises.bind (round item List.mem_cons_self) fun _ =>
        ih fun item among => round item (List.mem_cons_of_mem _ among)

/-! ### Values and errors of a program that maintains what is known -/

section

variable {allowed : {ρ : Type} → Op ρ → Prop} {known : σ → Prop}

theorem Ends.upholds {program : Task Op α} {post post' : α → Prop}
    (ends : program.Ends post') (upholds : program.Upholds machine allowed known post) :
    program.Upholds machine allowed known fun value => post value ∧ post' value := by
  induction program with
  | done value => exact ⟨upholds, ends⟩
  | call op next ih =>
      exact ⟨upholds.1, fun start answer finish knows stepped =>
        ih answer (ends answer) (upholds.2 start answer finish knows stepped)⟩

/-- Values are good and errors of this kind. -/
def Utters (machine : Machine Op σ) (allowed : {ρ : Type} → Op ρ → Prop) (known : σ → Prop)
    (program : ExceptT ε (Task Op) α) (good : α → Prop) (kind : ε → Prop) : Prop :=
  program.run.Upholds machine allowed known fun result =>
    (∀ value, result = .ok value → good value) ∧ ∀ error, result = .error error → kind error

theorem Yields.utters {program : ExceptT ε (Task Op) α} {good : α → Prop} {kind : ε → Prop}
    (yields : Yields machine allowed known program good) (raises : Raises program kind) :
    Utters machine allowed known program good kind :=
  Ends.upholds raises yields

theorem Utters.bind {program : ExceptT ε (Task Op) α} {after : α → ExceptT ε (Task Op) β}
    {good : α → Prop} {good' : β → Prop} {kind : ε → Prop}
    (first : Utters machine allowed known program good kind)
    (second : ∀ value, good value → Utters machine allowed known (after value) good' kind) :
    Utters machine allowed known (program >>= after) good' kind := by
  unfold Utters
  rw [upholds_except_bind]
  refine Upholds.mono first fun result kept => ?_
  cases result with
  | ok value => exact second value (kept.1 value rfl)
  | error error =>
      refine ⟨fun value same => ?_, fun found same => ?_⟩
      · cases same
      · cases same
        exact kept.2 error rfl

theorem utters_pure {good : α → Prop} {kind : ε → Prop} (value : α) (holds : good value) :
    Utters machine allowed known (pure value : ExceptT ε (Task Op) α) good kind :=
  Yields.utters (yields_pure value holds) (raises_pure value)

/-- A check that finds nothing. -/
theorem utters_check {good : α → Prop} {kind : ε → Prop} {condition : Prop}
    [Decidable condition] {error : ε} {next : PUnit → ExceptT ε (Task Op) α}
    (passes : ¬ condition) (rest : Utters machine allowed known (next ⟨⟩) good kind) :
    Utters machine allowed known (if condition then throw error >>= next else next ⟨⟩) good
      kind := by
  rw [if_neg passes]
  exact rest

end

theorem Upholds.without {mishap : {ρ : Type} → Op ρ → σ → ρ → σ → Prop}
    {allowed : {ρ : Type} → Op ρ → Prop} {known : σ → Prop} {program : Task Op α} {post : α → Prop}
    (upholds : program.Upholds machine allowed known post) :
    program.Upholds (machine.without mishap) allowed known post := by
  induction program with
  | done value => exact upholds
  | call op next ih =>
      refine ⟨upholds.1.imp_left fun quiet start => ?_, fun start answer finish knows stepped =>
        ih answer (upholds.2 start answer finish knows stepped.1)⟩
      exact ⟨(quiet start).1, fun answer finish stepped =>
        (quiet start).2 answer finish stepped.1⟩

/-! ### Values and errors of programs with a state of their own -/

/-- Every value of the session is good. -/
def Gives (program : ExceptT ε (StateT τ (Task Op)) α) (good : α → Prop) : Prop :=
  ∀ own, (program.run.run own).Ends fun result => ∀ value, result.1 = .ok value → good value

theorem gives_any {program : ExceptT ε (StateT τ (Task Op)) α} {good : α → Prop}
    (holds : ∀ value, good value) : Gives program good :=
  fun _ => ends_any fun _ value _ => holds value

theorem Gives.bind {program : ExceptT ε (StateT τ (Task Op)) α}
    {after : α → ExceptT ε (StateT τ (Task Op)) β} {good : α → Prop} {good' : β → Prop}
    (first : Gives program good) (second : ∀ value, good value → Gives (after value) good') :
    Gives (program >>= after) good' := by
  intro own
  rw [ExceptT.run_bind, StateT.run_bind, ends_bind]
  refine (first own).mono fun result holds => ?_
  obtain ⟨error | value, after⟩ := result
  · intro found same
    cases same
  · exact second value (holds value rfl) after

/-- Every error of the session is of this kind. -/
def Signals (program : ExceptT ε (StateT τ (Task Op)) α) (kind : ε → Prop) : Prop :=
  ∀ own, (program.run.run own).Ends fun result => ∀ error, result.1 = .error error → kind error

theorem Raises.signals {kind : ε → Prop} {program : ExceptT ε (Task Op) α}
    (raises : Raises program kind) :
    Signals (ExceptT.mk (StateT.lift program.run) : ExceptT ε (StateT τ (Task Op)) α) kind := by
  intro own
  change ((StateT.lift program.run : StateT τ (Task Op) (Except ε α)).run own).Ends _
  rw [StateT.run_lift, ends_bind]
  exact raises

theorem signals_adapt {kind : ε' → Prop} {change : ε → ε'}
    {program : ExceptT ε (StateT τ (Task Op)) α} (holds : ∀ error, kind (change error)) :
    Signals (ExceptT.adapt change program) kind := by
  intro own
  rw [ExceptT.run_adapt, StateT.run_map, ends_map]
  refine ends_any fun result error same => ?_
  obtain ⟨found | value, after⟩ := result
  · cases same
    exact holds found
  · cases same

theorem Signals.adapt {kind : ε → Prop} {kind' : ε' → Prop} {change : ε → ε'}
    {program : ExceptT ε (StateT τ (Task Op)) α} (signals : Signals program kind)
    (holds : ∀ error, kind error → kind' (change error)) :
    Signals (ExceptT.adapt change program) kind' := by
  intro own
  rw [ExceptT.run_adapt, StateT.run_map, ends_map]
  refine (signals own).mono fun result told error same => ?_
  obtain ⟨found | value, after⟩ := result
  · cases same
    exact holds found (told found rfl)
  · cases same

theorem Signals.bind {kind : ε → Prop} {program : ExceptT ε (StateT τ (Task Op)) α}
    {after : α → ExceptT ε (StateT τ (Task Op)) β} (first : Signals program kind)
    (second : ∀ value, Signals (after value) kind) : Signals (program >>= after) kind := by
  intro own
  rw [ExceptT.run_bind, StateT.run_bind, ends_bind]
  refine (first own).mono fun result holds => ?_
  obtain ⟨error | value, after⟩ := result
  · intro found same
    cases same
    exact holds error rfl
  · exact second value after

theorem signals_forM {kind : ε → Prop} {items : List β}
    {body : β → ExceptT ε (StateT τ (Task Op)) PUnit}
    (round : ∀ item ∈ items, Signals (body item) kind) : Signals (items.forM body) kind := by
  induction items with
  | nil =>
      intro own error same
      cases same
  | cons item rest ih =>
      exact Signals.bind (round item List.mem_cons_self) fun _ =>
        ih fun item among => round item (List.mem_cons_of_mem _ among)

end Task

end CrashLogic
