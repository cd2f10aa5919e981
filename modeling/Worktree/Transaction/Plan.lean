import Worktree.Error
import Worktree.Scheduler
/-
Planning an edit plan: the projected files of all workers in input order.
-/

namespace Worktree

namespace Edit

/-- The first job in input order that did not end well decides. -/
def collectResults {α : Type} :
    Nat → List (Except (ScheduleError WorktreeError) α) → Except WorktreeError (List α)
  | _, [] => .ok []
  | _, .error (.operation error) :: _ => .error error
  | index, .error (.panicked message) :: _ =>
      .error ((WorktreeError.new .workerPanicked .prepare message).atFile index)
  | index, .error .cancelled :: _ =>
      .error ((WorktreeError.new .cancelled .prepare
        "preparation was cancelled after an earlier worker failure").atFile index)
  | index, .ok value :: rest => do
      return value :: (← collectResults (index + 1) rest)

end Edit

end Worktree
