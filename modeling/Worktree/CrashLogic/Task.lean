/-
Programs over a signature of calls, and the runs a machine gives them.

A program is a finite-depth tree: it ends with a value or makes one call and
continues with whatever the call answers. A machine says which answers a call
may have and what a crash in the middle of the call may leave behind. Nothing
here fixes a signature, a state or a failure model.
-/

namespace CrashLogic

universe u

/-- A program that makes calls from `Op` and ends with an `α`. -/
inductive Task (Op : Type → Type u) (α : Type) : Type (max u 1)
  | done (value : α)
  | call {ρ : Type} (op : Op ρ) (next : ρ → Task Op α)

namespace Task

variable {Op : Type → Type u} {α β γ : Type}

/-- The program making a single call. -/
def perform {ρ : Type} (op : Op ρ) : Task Op ρ :=
  .call op .done

def bind : Task Op α → (α → Task Op β) → Task Op β
  | .done value, after => after value
  | .call op next, after => .call op fun answer => (next answer).bind after

instance : Monad (Task Op) where
  pure := .done
  bind := Task.bind

@[simp] theorem bind_call {ρ : Type} (op : Op ρ) (next : ρ → Task Op α)
    (after : α → Task Op β) :
    (Task.call op next >>= after) = .call op fun answer => next answer >>= after := rfl

theorem bind_pure_right (program : Task Op α) : (program >>= pure) = program := by
  induction program with
  | done value => rfl
  | call op next ih =>
      rw [bind_call]
      exact congrArg _ (funext ih)

theorem bind_assoc_right (program : Task Op α) (middle : α → Task Op β)
    (after : β → Task Op γ) :
    (program >>= middle >>= after) = (program >>= fun value => middle value >>= after) := by
  induction program with
  | done value => rfl
  | call op next ih =>
      simp only [bind_call]
      exact congrArg _ (funext ih)

instance : LawfulMonad (Task Op) :=
  LawfulMonad.mk' (Task Op) bind_pure_right (fun _ _ => rfl) bind_assoc_right

end Task

/-- The answers a call may have, and the states a crash inside it may leave. -/
structure Machine (Op : Type → Type u) (σ : Type) where
  step : {ρ : Type} → Op ρ → σ → ρ → σ → Prop
  torn : {ρ : Type} → Op ρ → σ → σ → Prop

namespace Task

variable {Op : Type → Type u} {σ α β : Type}

/-- `program` started in the first state may end with the value in the last. -/
def Returns (machine : Machine Op σ) : Task Op α → σ → α → σ → Prop
  | .done value, start, result, finish => result = value ∧ finish = start
  | .call op next, start, result, finish =>
      ∃ answer middle, machine.step op start answer middle ∧
        Returns machine (next answer) middle result finish

/-- `program` started in the first state may come to make `made` in the last. -/
def Calls (machine : Machine Op σ) {κ : Type} (made : Op κ) :
    Task Op α → σ → σ → Prop
  | .done _, _, _ => False
  | .call (ρ := ρ) op next, start, here =>
      ((∃ same : ρ = κ, same ▸ op = made) ∧ here = start) ∨
        ∃ answer middle, machine.step op start answer middle ∧
          Calls machine made (next answer) middle here

/-- A crash of `program` between two calls, inside one, or after the last. -/
inductive Crashes (machine : Machine Op σ) (program : Task Op α) (start : σ) : σ → Prop
  | before {κ : Type} (made : Op κ) (here : σ) (reached : program.Calls machine made start here) :
      Crashes machine program start here
  | inside {κ : Type} (made : Op κ) (here left : σ)
      (reached : program.Calls machine made start here) (torn : machine.torn made here left) :
      Crashes machine program start left
  | after (result : α) (finish : σ) (returned : program.Returns machine start result finish) :
      Crashes machine program start finish

theorem returns_bind (machine : Machine Op σ) (program : Task Op α) (after : α → Task Op β)
    (start finish : σ) (result : β) :
    (program >>= after).Returns machine start result finish ↔
      ∃ value middle, program.Returns machine start value middle ∧
        (after value).Returns machine middle result finish := by
  induction program generalizing start with
  | done value =>
      constructor
      · intro returned
        exact ⟨value, start, ⟨rfl, rfl⟩, returned⟩
      · rintro ⟨_, _, ⟨rfl, rfl⟩, returned⟩
        exact returned
  | call op next ih =>
      constructor
      · rintro ⟨answer, middle, stepped, returned⟩
        obtain ⟨value, last, first, second⟩ := (ih answer middle).mp returned
        exact ⟨value, last, ⟨answer, middle, stepped, first⟩, second⟩
      · rintro ⟨value, last, ⟨answer, middle, stepped, first⟩, second⟩
        exact ⟨answer, middle, stepped, (ih answer middle).mpr ⟨value, last, first, second⟩⟩

end Task

/-- One deterministic answer for every call. -/
structure Kernel (Op : Type → Type u) (σ : Type) where
  exec : {ρ : Type} → Op ρ → σ → ρ × σ

namespace Task

variable {Op : Type → Type u} {σ α β : Type}

/-- The one run of a program on a kernel. -/
def run (kernel : Kernel Op σ) : Task Op α → σ → α × σ
  | .done value, start => (value, start)
  | .call op next, start =>
      (next (kernel.exec op start).1).run kernel (kernel.exec op start).2

/-- The state after the first `count` calls of that run. -/
def cut (kernel : Kernel Op σ) : Nat → Task Op α → σ → σ
  | 0, _, start => start
  | _ + 1, .done _, start => start
  | count + 1, .call op next, start =>
      (next (kernel.exec op start).1).cut kernel count (kernel.exec op start).2

theorem run_bind (kernel : Kernel Op σ) (program : Task Op α) (after : α → Task Op β)
    (start : σ) :
    (program >>= after).run kernel start =
      (after (program.run kernel start).1).run kernel (program.run kernel start).2 := by
  induction program generalizing start with
  | done value => rfl
  | call op next ih => exact ih _ _

/-- A machine that may answer as the kernel does may run so. -/
theorem returns_run_of {machine : Machine Op σ} {kernel : Kernel Op σ}
    (steps : ∀ {ρ : Type} (op : Op ρ) (start : σ),
      machine.step op start (kernel.exec op start).1 (kernel.exec op start).2)
    (program : Task Op α) (start : σ) :
    program.Returns machine start (program.run kernel start).1 (program.run kernel start).2 := by
  induction program generalizing start with
  | done value => exact ⟨rfl, rfl⟩
  | call op next ih => exact ⟨_, _, steps op start, ih _ _⟩

/-- Every prefix of the run on a kernel is a crash point of a machine that may answer
as the kernel does. -/
theorem crashes_cut {machine : Machine Op σ} {kernel : Kernel Op σ}
    (steps : ∀ {ρ : Type} (op : Op ρ) (start : σ),
      machine.step op start (kernel.exec op start).1 (kernel.exec op start).2) (count : Nat)
    (program : Task Op α) (start : σ) :
    program.Crashes machine start (program.cut kernel count start) := by
  induction count generalizing program start with
  | zero =>
      cases program with
      | done value => exact .after value start ⟨rfl, rfl⟩
      | call op next => exact .before op start (.inl ⟨⟨rfl, rfl⟩, rfl⟩)
  | succ count ih =>
      cases program with
      | done value => exact .after value start ⟨rfl, rfl⟩
      | call op next =>
          have stepped := steps op start
          have tail := ih (next (kernel.exec op start).1) (kernel.exec op start).2
          cases tail with
          | before made here reached => exact .before made _ (.inr ⟨_, _, stepped, reached⟩)
          | inside made here left reached torn =>
              exact .inside made here _ (.inr ⟨_, _, stepped, reached⟩) torn
          | after result finish returned => exact .after result _ ⟨_, _, stepped, returned⟩

end Task

end CrashLogic
