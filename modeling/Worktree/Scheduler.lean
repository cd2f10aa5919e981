import Worktree.Filesystem.World
/-
Bounded scheduling of independent preparation jobs on a pool of workers.
-/

namespace Worktree

open CrashLogic

def hardMaxWorkers : Nat := 16

/-- How a job ended that did not produce its value. -/
inductive ScheduleError (ε : Type)
  | operation (error : ε)
  | panicked (message : String)
  | cancelled

/-- Resolves a worker request against the job count and the hard ceiling. -/
def boundedWorkerCount (requested jobCount : Nat) : Nat :=
  if jobCount = 0 then 0
  else min (min (max requested 1) hardMaxWorkers) jobCount

/-! ### Jobs that may panic -/

/-- What a panic carries: a literal, a formatted text, or a value of another type. -/
inductive Payload
  | text (message : String)
  | string (message : String)
  | other

def panicMessage : Payload → String
  | .text message => message
  | .string message => message
  | .other => "non-string panic payload"

/-- How a call of the operation comes back: it returns, or it unwinds. -/
inductive JobEnd (ε ρ : Type)
  | returned (result : Except ε ρ)
  | unwound (payload : Payload)

def catchUnwind {ε ρ : Type} : JobEnd ε ρ → Except (ScheduleError ε) ρ
  | .returned (.ok value) => .ok value
  | .returned (.error error) => .error (.operation error)
  | .unwound payload => .error (.panicked (panicMessage payload))

/-- The operation unwinds after this many of its calls, if it comes so far. -/
def unwindAfter {ε ρ : Type} (payload : Payload) :
    Nat → Task FsOp (Except ε ρ) → Task FsOp (JobEnd ε ρ)
  | 0, _ => return .unwound payload
  | _ + 1, .done result => return .returned result
  | count + 1, .call op next => .call op fun answer => unwindAfter payload count (next answer)

def unwinding {ε ρ : Type} (panic : Option (Nat × Payload)) (operation : ExceptT ε (Task FsOp) ρ) :
    Task FsOp (JobEnd ε ρ) :=
  match panic with
  | none => JobEnd.returned <$> operation.run
  | some (count, payload) => unwindAfter payload count operation.run

section

variable {σ ε ρ : Type} {machine : Machine FsOp σ}
  {guard : {ρ : Type} → FsOp ρ → σ → Prop} {rely promise : σ → σ → Prop}

/-- A job that unwinds leaves what it and the others kept all along. -/
theorem unwindAfter_under {kept : σ → Prop} (payload : Payload)
    (stable : ∀ here finish, kept here → rely here finish → kept finish)
    (moves : ∀ here finish, kept here → promise here finish → kept finish) (count : Nat)
    {program : Task FsOp (Except ε ρ)} {post : Except ε ρ → σ → Prop} {start : σ}
    (under : program.Under machine guard rely promise post start) (holds : kept start) :
    (unwindAfter payload count program).Under machine guard rely promise
      (fun ending here => kept here ∧ ∀ result, ending = .returned result → post result here)
      start := by
  induction count generalizing program start with
  | zero =>
      intro here moved
      exact ⟨stable start here holds moved, fun _ impossible => by cases impossible⟩
  | succ count ih =>
      cases program with
      | done result =>
          intro here moved
          refine ⟨stable start here holds moved, fun found same => ?_⟩
          cases same
          exact under here moved
      | call op next =>
          intro here moved
          have still := stable start here holds moved
          obtain ⟨guarded, steps⟩ := under here moved
          refine ⟨guarded, fun answer finish stepped => ?_⟩
          have stepping := steps answer finish stepped
          exact ⟨stepping.1, ih stepping.2 (moves here finish still stepping.1)⟩

theorem unwinding_under (kept : σ → Prop) (panic : Option (Nat × Payload))
    (stable : ∀ here finish, kept here → rely here finish → kept finish)
    (moves : ∀ here finish, kept here → promise here finish → kept finish)
    {operation : ExceptT ε (Task FsOp) ρ} {post : Except ε ρ → σ → Prop} {start : σ}
    (under : operation.run.Under machine guard rely promise post start)
    (holds : kept start) :
    (unwinding panic operation).Under machine guard rely promise
      (fun ending here => kept here ∧ ∀ result, ending = .returned result → post result here)
      start := by
  cases panic with
  | some panic => exact unwindAfter_under panic.2 stable moves panic.1 under holds
  | none =>
      refine Task.Under.map ((under.keeps kept stable moves holds).mono
        fun result here ended => ⟨ended.2, fun found same => ?_⟩)
      cases same
      exact ended.1

end

/-- One result for each job in input order, whatever becomes of the jobs. -/
def mapUnwinding {ι ε ρ : Type} (items : List ι) (requestedWorkers : Nat)
    (operation : Nat → ι → Task FsOp (JobEnd ε ρ)) :
    Task (Phase FsOp) (List (Except (ScheduleError ε) ρ)) :=
  if boundedWorkerCount requestedWorkers items.length = 0 then return []
  else do
    let results ← Task.perform (.spawn (boundedWorkerCount requestedWorkers items.length)
      items.length fun index =>
        match items[index]? with
        | some item => catchUnwind <$> operation index item
        | none => return .error .cancelled)
    return results.map fun result => result.getD (.error .cancelled)

/-! ### Jobs that do not -/

/-- Catches the error of a job. No job of the program panics by itself. -/
def runJob {ε ρ : Type} (operation : ExceptT ε (Task FsOp) ρ) :
    Task FsOp (Except (ScheduleError ε) ρ) :=
  Except.mapError .operation <$> operation.run

/-- One result for each job in input order; a job nobody admitted is cancelled. -/
def mapOrdered {ι ε ρ : Type} (items : List ι) (requestedWorkers : Nat)
    (operation : ι → ExceptT ε (Task FsOp) ρ) :
    Task (Phase FsOp) (List (Except (ScheduleError ε) ρ)) :=
  if boundedWorkerCount requestedWorkers items.length = 0 then return []
  else do
    let results ← Task.perform (.spawn (boundedWorkerCount requestedWorkers items.length)
      items.length fun index =>
        match items[index]? with
        | some item => runJob (operation item)
        | none => return .error .cancelled)
    return results.map fun result => result.getD (.error .cancelled)

/-- Jobs that always return are a case of those that may panic. -/
theorem mapOrdered_eq {ι ε ρ : Type} (items : List ι) (requestedWorkers : Nat)
    (operation : ι → ExceptT ε (Task FsOp) ρ) :
    mapOrdered items requestedWorkers operation =
      mapUnwinding items requestedWorkers
        fun _ item => JobEnd.returned <$> (operation item).run := by
  unfold mapOrdered mapUnwinding
  have same : (fun index : Nat => match items[index]? with
        | some item => runJob (operation item)
        | none => pure (.error .cancelled)) =
      fun index : Nat => match items[index]? with
        | some item => catchUnwind <$> JobEnd.returned <$> (operation item).run
        | none => pure (.error .cancelled) := by
    funext index
    cases items[index]? with
    | none => rfl
    | some item =>
        unfold runJob
        dsimp only
        rw [← comp_map]
        refine congrArg (fun change => change <$> (operation item).run) (funext fun result => ?_)
        cases result <;> rfl
  rw [same]

end Worktree
