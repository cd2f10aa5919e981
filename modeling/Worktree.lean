import Worktree.Operation.Prepare
import Worktree.Operation.Commit
import Worktree.Operation.Replay
import Worktree.Undo.Receipt
import Worktree.Undo.Retained
import Worktree.Undo.Rollback
import Worktree.Operation.Recovery
import Worktree.Filesystem.Observing
import Worktree.Filesystem.Changing
import Worktree.Filesystem.Sparing
import Worktree.Filesystem.Bypassing
import Worktree.Filesystem.StateFiles
import Worktree.Journal.Lines
import Worktree.Journal.Logging
import Worktree.Journal.Resuming
import Worktree.Operation.Skirting
import Worktree.Operation.Committing
import Worktree.Operation.Recovering
import Worktree.Operation.Pending
import Worktree.Operation.Soundness
import Worktree.CrashLogic.Schedule
import Worktree.Operation.Scheduling
import Worktree.CrashLogic.Format
import Worktree.Crates.Sha256
import Worktree.Crates.Json
import Worktree.Crates.Plain
import Worktree.Journal.Torn
import Worktree.CrashLogic.Run
import Worktree.Filesystem.Calm
import Worktree.Undo.Conflict
import Worktree.Undo.Discarding
import Worktree.Undo.Restarting
import Worktree.CrashLogic.Outcome
import Worktree.Operation.Flagging
import Worktree.Undo.Flagging
import Worktree.Journal.EditJournal
import Worktree.Plan.Metadata
import Worktree.Transaction.Projection
import Worktree.Transaction.Commit
import Worktree.Transaction.Recovery
import Worktree.Transaction.Flagging
import Worktree.Filesystem.Aside
import Worktree.Operation.Leaving
import Worktree.Plan.Budget
import Worktree.Plan.Compiling
import Worktree.Transaction.Ceilings
import Worktree.Filesystem.Confinement
import Worktree.Operation.Staging
import Worktree.Operation.Aliasing
import Worktree.Filesystem.Relocating
import Worktree.Undo.Relocating
import Worktree.Operation.Sizing
import Worktree.Undo.Receipting
import Worktree.Operation.Reserving
import Worktree.Operation.Accepting
import Worktree.Operation.Lasting
import Worktree.Operation.Preparing
import Worktree.Operation.Readying
import Worktree.Operation.Living
import Worktree.CrashLogic.Assignment
import Worktree.Operation.Applying
import Worktree.Operation.Fulfilling
