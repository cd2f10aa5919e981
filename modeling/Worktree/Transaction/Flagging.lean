import Worktree.Crates.Plain
import Worktree.Operation.Flagging
import Worktree.Transaction.Commit
import Worktree.Transaction.Recovery
/-
What the recovery flag of a failed edit transaction says about its journal.

An error that leaves the journal behind has to be flagged. A step that cannot
know better flags its error; the others remove the journal before they report.
-/

namespace Worktree

open CrashLogic

namespace Edit

universe u

/-! ### Errors and the journal -/

/-- A value is good, and an error is flagged where the journal is left. -/
def Tells {α : Type} (journal : Slot) (good : α → World → Prop) (result : Except WorktreeError α)
    (finish : World) : Prop :=
  match result with
  | .ok value => good value finish
  | .error error => (finish.look journal).isSome = true → error.Flagged

/-- The removal of the journal says that it is missing while it is there. -/
def Denied (host : Host) (journal : Slot) : {ρ : Type} → FsOp ρ → World → ρ → World → Prop
  | _, .io (.removeFile dir name), _, .error error, finish =>
      host.slot dir name = journal ∧ error.kind = .notFound ∧
        (finish.look journal).isSome = true
  | _, _, _, _, _ => False

section

variable {Op : Type → Type u} {machine : Machine Op World} {journal : Slot} {α β : Type}
  {start : World}

theorem tells_bind {program : ExceptT WorktreeError (Task Op) α}
    {next : α → ExceptT WorktreeError (Task Op) β} {good : α → World → Prop}
    {good' : β → World → Prop}
    (first : program.run.Meets machine (fun _ _ => True) (Tells journal good) start)
    (second : ∀ value middle, good value middle →
      (next value).run.Meets machine (fun _ _ => True) (Tells journal good') middle) :
    (program >>= next).run.Meets machine (fun _ _ => True) (Tells journal good') start := by
  rw [Task.meets_except_bind]
  refine first.mono fun result middle told => ?_
  cases result with
  | ok value => exact second value middle told
  | error error => exact told

theorem tells_session_bind {program : ExceptT WorktreeError (StateT JournalWriter (Task Op)) α}
    {next : α → ExceptT WorktreeError (StateT JournalWriter (Task Op)) β}
    {good : α → World → Prop} {good' : β → World → Prop} {writer : JournalWriter}
    (first : (program.run.run writer).Meets machine (fun _ _ => True)
      (fun result => Tells journal good result.1) start)
    (second : ∀ value after middle, good value middle →
      ((next value).run.run after).Meets machine (fun _ _ => True)
        (fun result => Tells journal good' result.1) middle) :
    ((program >>= next).run.run writer).Meets machine (fun _ _ => True)
      (fun result => Tells journal good' result.1) start := by
  rw [Task.meets_session_bind]
  refine first.mono fun result middle told => ?_
  obtain ⟨error | value, after⟩ := result
  · exact told
  · exact second value after middle told

theorem tells_of_raises {program : ExceptT WorktreeError (Task Op) α}
    (raises : Task.Raises program WorktreeError.Flagged) :
    program.run.Meets machine (fun _ _ => True) (Tells journal fun _ _ => True) start := by
  refine (Task.Ends.meets raises start).mono fun result finish kinds => ?_
  cases result with
  | ok value => exact trivial
  | error error => exact fun _ => kinds error rfl

theorem tells_of_signals
    {program : ExceptT WorktreeError (StateT JournalWriter (Task Op)) α}
    (signals : Task.Signals program WorktreeError.Flagged) (writer : JournalWriter) :
    (program.run.run writer).Meets machine (fun _ _ => True)
      (fun result => Tells journal (fun _ _ => True) result.1) start := by
  refine (Task.Ends.meets (signals writer) start).mono fun result finish kinds => ?_
  obtain ⟨error | value, after⟩ := result
  · exact fun _ => kinds error rfl
  · exact trivial

theorem tells_beside {program : Action α} {good : α → World → Prop}
    {machine : Machine FsOp World}
    (told : program.run.Meets machine (fun _ _ => True) (Tells journal good) start)
    (writer : JournalWriter) :
    ((beside program).run.run writer).Meets machine (fun _ _ => True)
      (fun result => Tells journal good result.1) start := by
  unfold beside
  rw [Task.meets_session_lift]
  exact told

theorem signals_beside {program : Action α} {kind : WorktreeError → Prop}
    (raises : Task.Raises program kind) : Task.Signals (beside program) kind :=
  raises.signals

end

/-! ### Steps that flag their errors -/

section

variable {T : Type} {crates : Crates T}

theorem append_signals {record : JournalRecord} {wrap : JournalError → WorktreeError}
    (flagged : ∀ error, (wrap error).Flagged) :
    Task.Signals (appendOr crates record wrap) WorktreeError.Flagged :=
  Task.signals_adapt flagged

theorem removePair_raises (access : TargetAccess) (stage backup : String) (index : Nat) :
    Task.Raises (removePair access stage backup index) WorktreeError.Flagged := by
  unfold removePair
  refine Task.Raises.bind (Task.raises_adapt fun _ => rfl) fun _ => ?_
  refine Task.Raises.bind (Task.raises_adapt fun _ => rfl) fun _ => ?_
  exact Task.raises_pure _

theorem cleanupStaged_raises (files : List StagedFile) :
    Task.Raises (cleanupStaged files) WorktreeError.Flagged := by
  induction files with
  | nil => exact Task.raises_pure _
  | cons file rest ih =>
      unfold cleanupStaged
      refine Task.Raises.bind (removePair_raises _ _ _ _) fun _ => ?_
      exact Task.Raises.bind ih fun _ => Task.raises_pure _

/-- Outside a commit an artifact that is not as recorded asks for a recovery. -/
theorem verifyArtifact_raises (access : TargetAccess) (name : String) (expected : Sha256Hash)
    (maxBytes index : Nat) {phase : TransactionPhase} (other : phase ≠ .commit) :
    Task.Raises (verifyArtifact crates.sha256 access name expected maxBytes index phase)
      WorktreeError.Flagged := by
  have flagged : ∀ error, (artifactError phase error).Flagged := by
    intro error
    unfold artifactError
    rw [if_neg other]
    rfl
  unfold verifyArtifact
  refine Task.Raises.bind (Task.raises_adapt fun _ => flagged _) fun _ => ?_
  exact Task.raises_ite (fun _ => Task.raises_throw (flagged _)) fun _ => Task.raises_pure _

variable {host : Host} {weather : Weather} {journal : Slot} {start : World}

/-- A removal that says it is done is done. -/
theorem removeJournal_gone {control : ControlDir}
    (place : host.slot control.dir legacyJournal = journal) :
    control.removeJournal.run.Meets ((fsMachine host weather).without (Denied host journal))
      (fun _ _ => True) (fun result finish => result = .ok () → finish.look journal = none)
      start := by
  unfold ControlDir.removeJournal ControlDir.removeNamedJournal
  rw [Task.meets_except_bind]
  unfold attempt
  rw [Task.meets_except_lift]
  refine ⟨trivial, fun answer middle stepped => ?_⟩
  obtain ⟨stepped, truthful⟩ := stepped
  have missing : ∀ error : IoError, answer = .error error → error.kind = .notFound →
      middle.look journal = none := by
    intro error same kind
    subst same
    have told : ¬ (middle.look journal).isSome = true := fun left => truthful ⟨place, kind, left⟩
    simpa using told
  have removed : answer = .ok () → middle.look journal = none := by
    intro same
    subst same
    rcases stepped with done | ⟨_, error, impossible, _⟩
    · simp only [FsCall.exec, place] at done
      split at done
      · cases done
      · split at done
        · cases done
        · cases done
          exact World.look_unlink_self
    · cases impossible
  cases answer with
  | ok value =>
      refine ⟨trivial, fun answer finish synced _ => ?_⟩
      have same := (quiet_syncDir control.dir middle).2 answer finish synced.1
      rw [same]
      exact removed rfl
  | error error =>
      change Task.Meets _ _ (ExceptT.run
        (if error.kind = .notFound then pure () else throw error : Io Unit)) _ middle
      split
      · next kind => exact fun _ => missing error rfl kind
      · next kind => exact fun impossible => by cases impossible

theorem orElse_removeJournal_tells {control : ControlDir} {wrap : IoError → WorktreeError}
    (place : host.slot control.dir legacyJournal = journal)
    (flagged : ∀ error, (wrap error).Flagged) :
    (orElse control.removeJournal wrap).run.Meets
      ((fsMachine host weather).without (Denied host journal)) (fun _ _ => True)
      (Tells journal fun _ finish => finish.look journal = none) start := by
  unfold orElse
  rw [Task.meets_except_adapt]
  refine (removeJournal_gone place).mono fun result finish gone => ?_
  cases result with
  | ok value => exact gone rfl
  | error error => exact fun _ => flagged error

end

/-! ### Committing and aborting -/

section

variable {T : Type} {crates : Crates T} {transaction : PreparedTransaction} {host : Host}
  {weather : Weather} {journal : Slot} {start : World}

theorem rollbackOne_signals (file : StagedFile) :
    Task.Signals (rollbackOne crates transaction file) WorktreeError.Flagged := by
  unfold rollbackOne
  refine Task.Signals.bind (signals_beside (Task.raises_adapt fun _ => rfl)) fun _ => ?_
  refine Task.Signals.bind (signals_beside (verifyArtifact_raises _ _ _ _ _ (by decide)))
    fun _ => ?_
  refine Task.Signals.bind (append_signals fun _ => rfl) fun _ => ?_
  refine Task.Signals.bind (signals_beside (Task.raises_adapt fun _ => rfl)) fun _ => ?_
  exact append_signals fun _ => rfl

theorem rollbackCommitted_tells (committed : List StagedFile) (writer : JournalWriter)
    (place : host.slot transaction.control.dir legacyJournal = journal) :
    ((rollbackCommitted crates transaction committed).run.run writer).Meets
      ((fsMachine host weather).without (Denied host journal)) (fun _ _ => True)
      (fun result => Tells journal (fun _ finish => finish.look journal = none) result.1)
      start := by
  unfold rollbackCommitted
  have restored : Task.Signals (committed.reverse.forM (rollbackOne crates transaction))
      WorktreeError.Flagged := Task.signals_forM fun file _ => rollbackOne_signals file
  refine tells_session_bind (tells_of_signals restored writer) fun _ after middle _ => ?_
  refine tells_session_bind (tells_of_signals ?_ after) fun _ after middle _ => ?_
  · exact append_signals fun _ => rfl
  refine tells_session_bind (tells_of_signals (signals_beside (cleanupStaged_raises _)) after)
    fun _ after middle _ => ?_
  refine tells_beside (orElse_removeJournal_tells place ?_) after
  exact fun _ => rfl

/-- A commit that is undone reports once its journal is gone. -/
theorem undone_tells (committed : List StagedFile) (error : WorktreeError)
    (writer : JournalWriter)
    (place : host.slot transaction.control.dir legacyJournal = journal)
    (good : Unit → World → Prop) :
    ((undone crates transaction committed error).run.run writer).Meets
      ((fsMachine host weather).without (Denied host journal)) (fun _ _ => True)
      (fun result => Tells journal good result.1) start := by
  unfold undone
  refine tells_session_bind (rollbackCommitted_tells committed writer place)
    fun _ after middle gone => ?_
  intro left
  have absent : middle.look journal = none := gone
  rw [absent] at left
  cases left

/-- Only a file that nobody can classify fails as such, and its error is flagged. -/
def SureOrFlagged (failed : WorktreeError × CommitFailureState) : Prop :=
  failed.2 = .ambiguous → failed.1.Flagged

theorem renamed_signals (file : StagedFile) :
    Task.Signals (renamed crates transaction file) SureOrFlagged := by
  intro own
  unfold renamed
  rw [ExceptT.run_mk, StateT.run_bind, Task.ends_bind]
  refine Task.ends_any fun result => ?_
  obtain ⟨source | value, after⟩ := result
  · change Task.Ends (StateT.run (StateT.lift (classifyFailedRename crates transaction file) >>= _)
      after) _
    rw [StateT.run_bind, Task.ends_bind]
    refine Task.ends_any fun classified => ?_
    obtain ⟨state, after⟩ := classified
    intro failed same
    cases same
    intro ambiguous
    have known : state = .ambiguous := ambiguous
    change WorktreeError.Flagged (if state = .ambiguous then _ else _)
    rw [if_pos known]
    rfl
  · intro failed same
    cases same

theorem commitOne_signals (file : StagedFile) :
    Task.Signals (commitOne crates transaction file) SureOrFlagged := by
  have sure : ∀ {state : CommitFailureState}, state ≠ .ambiguous →
      ∀ error, SureOrFlagged (error, state) := fun known _ ambiguous => absurd ambiguous known
  unfold commitOne
  refine Task.Signals.bind (Task.signals_adapt (sure (by decide))) fun _ => ?_
  refine Task.Signals.bind (Task.signals_adapt (sure (by decide))) fun _ => ?_
  refine Task.Signals.bind (renamed_signals file) fun _ => ?_
  refine Task.Signals.bind (Task.signals_adapt (sure (by decide))) fun _ => ?_
  exact Task.signals_adapt (sure (by decide))

theorem commitFiles_signals (committed rest : List StagedFile) :
    Task.Signals (commitFiles crates transaction committed rest)
      fun failed => ∀ error, failed = .ambiguous error → error.Flagged := by
  induction rest generalizing committed with
  | nil =>
      intro own failed same
      cases same
  | cons file rest ih =>
      unfold commitFiles
      refine Task.Signals.bind (Task.Signals.adapt (commitOne_signals file) ?_) fun _ => ih _
      intro failed flagged error same
      obtain ⟨cause, state⟩ := failed
      cases state with
      | unchanged => cases same
      | changed => cases same
      | ambiguous =>
          cases same
          exact flagged rfl

theorem commitAll_tells (writer : JournalWriter)
    (place : host.slot transaction.control.dir legacyJournal = journal) :
    ((commitAll crates transaction).run.run writer).Meets
      ((fsMachine host weather).without (Denied host journal)) (fun _ _ => True)
      (fun result => Tells journal (fun _ _ => True) result.1) start := by
  unfold commitAll
  rw [Task.meets_session_bind, ExceptT.run_lift, StateT.run_map, Task.meets_map]
  refine (Task.Ends.meets (commitFiles_signals [] transaction.files writer) start).mono
    fun result finish kinds => ?_
  obtain ⟨failure | value, after⟩ := result
  · cases failure with
    | ambiguous error => exact fun _ => kinds _ rfl error rfl
    | changed error changed => exact undone_tells changed error after place _
  · exact trivial

theorem verified_tells (writer : JournalWriter)
    (place : host.slot transaction.control.dir legacyJournal = journal) :
    ((verified crates transaction).run.run writer).Meets
      ((fsMachine host weather).without (Denied host journal)) (fun _ _ => True)
      (fun result => Tells journal (fun _ _ => True) result.1) start := by
  unfold verified
  rw [Task.meets_session_bind, ExceptT.run_lift, StateT.run_map, Task.meets_map]
  refine (Task.meets_true _ start).mono fun result finish _ => ?_
  obtain ⟨error | value, after⟩ := result
  · exact undone_tells [] error after place _
  · exact trivial

theorem commitJournaled_tells (writer : JournalWriter)
    (place : host.slot transaction.control.dir legacyJournal = journal) :
    ((commitJournaled crates transaction).run.run writer).Meets
      ((fsMachine host weather).without (Denied host journal)) (fun _ _ => True)
      (fun result => Tells journal (fun _ _ => True) result.1) start := by
  unfold commitJournaled
  refine tells_session_bind (verified_tells writer place) fun _ after middle _ => ?_
  refine tells_session_bind (commitAll_tells after place) fun _ after middle _ => ?_
  refine tells_session_bind (tells_of_signals ?_ after) fun _ after middle _ => ?_
  · exact append_signals fun _ => rfl
  refine tells_session_bind (tells_of_signals (signals_beside (cleanupStaged_raises _)) after)
    fun _ after middle _ => ?_
  refine tells_session_bind (tells_of_signals ?_ after) fun _ after middle _ => ?_
  · exact signals_beside (Task.raises_adapt fun _ => rfl)
  exact trivial

theorem abortJournaled_signals :
    Task.Signals (abortJournaled crates transaction) WorktreeError.Flagged := by
  unfold abortJournaled
  refine Task.Signals.bind (append_signals fun _ => rfl) fun _ => ?_
  refine Task.Signals.bind (signals_beside (cleanupStaged_raises _)) fun _ => ?_
  refine Task.Signals.bind (signals_beside (Task.raises_adapt fun _ => rfl)) fun _ => ?_
  intro own error same
  cases same

/-- Dropping the writer and the lock changes no error and no entry. -/
theorem consume_tells {α : Type} {session : Journaled α} {mishap : {ρ : Type} → FsOp ρ → World →
      ρ → World → Prop}
    (told : (session.run.run transaction.journal).Meets ((fsMachine host weather).without mishap)
      (fun _ _ => True) (fun result => Tells journal (fun _ _ => True) result.1) start) :
    (transaction.consume session).run.Meets ((fsMachine host weather).without mishap)
      (fun _ _ => True) (Tells journal fun _ _ => True) start := by
  unfold PreparedTransaction.consume holding
  rw [ExceptT.run_mk, CrashLogic.Task.meets_bind, ExceptT.run_mk, CrashLogic.Task.meets_bind]
  refine told.mono fun result middle ended => ?_
  refine ⟨trivial, fun answer finish stepped => ?_⟩
  obtain ⟨rfl, _⟩ := stepped
  obtain ⟨error | value, after⟩ := result
  · exact ended
  · exact trivial

end

/-! ### Preparing -/

/-- The answers after which a failed preparation may hide that its journal is left. -/
def PrepareMishap (host : Host) (journal : Slot) :
    {ρ : Type} → FsOp ρ → World → ρ → World → Prop
  | _, .io (.removeFile dir name), _, .error error, finish =>
      host.slot dir name = journal ∧ error.kind = .notFound ∧
        (finish.look journal).isSome = true
  | _, .io (.openFile dir name _), _, .error _, finish =>
      host.slot dir name = journal ∧ (finish.look journal).isSome = true
  | _, .io (.syncDir dir), start, .error _, _ =>
      dir = journal.dir ∧ (start.look journal).isSome = true
  | _, .io (.metadata file), start, .error _, _ =>
      ∃ seen, start.look journal = some seen ∧ seen.ino = file
  | _, _, _, _, _ => False

section

variable {T : Type} {crates : EditCrates T} {host : Host} {weather : Weather} {journal : Slot}
  {start : World} {control : ControlDir} {options : WorktreeOptions} {α β : Type}

/-- The machine without them. -/
abbrev preparing (host : Host) (weather : Weather) (journal : Slot) : Machine FsOp World :=
  (fsMachine host weather).without (PrepareMishap host journal)

theorem honest_preparing {program : Task FsOp α} {post : α → World → Prop}
    (meets : program.Meets ((fsMachine host weather).without (Denied host journal))
      (fun _ _ => True) post start) :
    program.Meets (preparing host weather journal) (fun _ _ => True) post start := by
  refine meets.machine_mono fun op here answer finish stepped => ⟨stepped.1, fun denied => ?_⟩
  cases op with
  | io call =>
      cases call with
      | removeFile dir name =>
          cases answer with
          | ok value => exact denied
          | error error => exact stepped.2 denied
      | _ => exact denied
  | unlock file => exact denied
  | refuseAppend => exact denied

theorem tells_planning {machine : Machine FsOp World} {program : Action α} {good : α → World → Prop}
    (told : program.run.Meets machine (fun _ _ => True) (Tells journal good) start) :
    program.planning.run.Meets machine.phased (fun _ _ => True) (Tells journal good) start :=
  (Task.meets_phase machine _ program.run _ start).mpr told

theorem tells_journaled_planning {machine : Machine FsOp World} {program : Journaled α}
    {good : α → World → Prop} {writer : JournalWriter}
    (told : (program.run.run writer).Meets machine (fun _ _ => True)
      (fun result => Tells journal good result.1) start) :
    (program.planning.run.run writer).Meets machine.phased (fun _ _ => True)
      (fun result => Tells journal good result.1) start :=
  (Task.meets_phase machine _ (program.run.run writer) _ start).mpr told

/-! #### Before the journal -/

/-- Readers find no journal where there is none. -/
theorem tells_of_reads {program : Action α} {good : α → Prop}
    (reads : Reads host weather program good) (absent : start.look journal = none) :
    program.run.Meets (preparing host weather journal) (fun _ _ => True)
      (Tells journal fun value finish => finish.look journal = none ∧ good value) start := by
  refine (Task.Meets.without (meets_of_yields (Reads.yields reads) fun _ _ => trivial)).mono
    fun result finish ended => ?_
  obtain ⟨rfl, found⟩ := ended
  cases result with
  | ok value => exact ⟨absent, found value rfl⟩
  | error error =>
      intro left
      rw [absent] at left
      cases left

theorem openJournal_tells (place : host.slot control.dir legacyJournal = journal)
    (wrap : IoError → WorktreeError) :
    (orElse control.openJournal wrap).run.Meets (preparing host weather journal)
      (fun _ _ => True)
      (Tells journal fun found finish => found = none → finish.look journal = none) start := by
  unfold orElse ControlDir.openJournal ControlDir.openNamedJournal
  rw [Task.meets_except_adapt, Task.meets_except_bind]
  unfold attempt
  rw [Task.meets_except_lift]
  refine ⟨trivial, fun answer finish stepped => ?_⟩
  obtain ⟨_, careful⟩ := stepped
  cases answer with
  | ok file => exact fun impossible => by cases impossible
  | error error =>
      have absent : finish.look journal = none := by
        have told : ¬ (finish.look journal).isSome = true := fun left => careful ⟨place, left⟩
        simpa using told
      change Task.Meets _ _ (ExceptT.run
        (if error.kind = .notFound then pure none else throw error : Io (Option Ino))) _ finish
      split
      · exact fun _ => absent
      · intro left
        rw [absent] at left
        cases left

/-- Where no journal is found, there is none of edits. -/
theorem findPending_tells (place : host.slot control.dir legacyJournal = journal) :
    (findPending control).run.Meets (preparing host weather journal) (fun _ _ => True)
      (Tells journal fun pending finish => pending = false → finish.look journal = none)
      start := by
  unfold findPending
  refine tells_bind (openJournal_tells place _) fun legacy middle absent => ?_
  cases legacy with
  | some file => exact fun impossible => by cases impossible
  | none =>
      have operation : Reads host weather (orElse control.openOperationJournal openJournalError)
          fun _ => True := Task.yields_adapt ControlDir.openOperationJournal_reads
      refine tells_bind (tells_of_reads operation (absent rfl)) fun current middle kept => ?_
      cases current with
      | some file => exact fun impossible => by cases impossible
      | none =>
          have undo : Reads host weather (orElse control.openUndoJournal openJournalError)
              fun _ => True := Task.yields_adapt (ControlDir.openNamedJournal_reads _)
          refine tells_bind (tells_of_reads undo kept.1) fun _ middle kept => ?_
          exact fun _ => kept.1

theorem liftWorktree_any {result : Except WorktreeError α} :
    Reads host weather (liftWorktree result) fun _ => True :=
  Task.yields_result result fun _ _ => trivial

theorem preflight_reads (root : FsRoot) (identities : List (FileIdentity × Nat)) (total : Nat)
    (files : List (FileEdit T × Nat)) :
    Reads host weather (preflight crates root options identities total files)
      fun planned => planned.length = files.length := by
  induction files generalizing identities total with
  | nil =>
      unfold preflight
      exact Task.yields_pure _ rfl
  | cons item rest ih =>
      obtain ⟨file, index⟩ := item
      unfold preflight
      refine Task.Yields.bind (Task.yields_adapt (Reads.any (openTarget_reads _ _)))
        fun access _ => ?_
      refine Task.Yields.bind (Task.yields_adapt TargetAccess.probe_reads) fun probe _ => ?_
      refine yields_check fun _ => ?_
      refine Task.Yields.bind liftWorktree_any fun total _ => ?_
      refine yields_check fun _ => ?_
      split
      · exact Task.yields_throw _
      · refine Task.Yields.bind (ih _ _) fun planned counted => ?_
        refine Task.yields_pure _ ?_
        rw [List.length_cons, List.length_cons, counted]

theorem projectTarget_reads (planned : PlannedTarget T) :
    Reads host weather (projectTarget crates options planned)
      fun target => target.identity = planned.identity := by
  unfold projectTarget
  refine Task.Yields.bind (Task.yields_adapt (Reads.any (TargetAccess.snapshot_reads _)))
    fun snapshot _ => ?_
  refine yields_check fun _ => ?_
  refine yields_check fun _ => ?_
  refine Task.Yields.bind liftWorktree_any fun projected _ => ?_
  exact Task.yields_pure _ rfl

/-- A pool answers no more than it has jobs. -/
theorem mapOrdered_length {machine : Machine FsOp World} {ι ρ : Type} (items : List ι)
    (workers : Nat) (operation : ι → Action ρ) :
    (mapOrdered items workers operation).Meets machine.phased (fun _ _ => True)
      (fun results _ => results.length ≤ items.length) start := by
  unfold mapOrdered
  split
  · exact Nat.zero_le _
  · refine ⟨trivial, fun answer finish stepped => ?_⟩
    obtain ⟨pool, _, _, rfl⟩ := stepped
    change (List.map _ _).length ≤ _
    rw [List.length_map, List.length_map, List.length_range]

/-- Workers that only read find no journal where there is none. -/
theorem mapOrdered_reads {ι ρ : Type} {items : List ι} {workers : Nat} {operation : ι → Action ρ}
    (reads : ∀ item, Reads host weather (operation item) fun _ => True)
    (absent : start.look journal = none) :
    (mapOrdered items workers operation).Meets (preparing host weather journal).phased
      (fun _ _ => True) (fun _ finish => finish.look journal = none) start := by
  unfold mapOrdered
  split
  · exact absent
  · next some_worker =>
      have nonempty : 0 < items.length := by
        by_contra empty
        apply some_worker
        unfold boundedWorkerCount
        rw [if_pos (by omega)]
      have still : (preparing host weather journal).Maintains (fun _ => False)
          (fun here => here.look journal = none) :=
        ⟨fun _ _ _ _ => False.elim, fun _ _ _ => False.elim⟩
      rw [Task.meets_bind]
      refine (Contract.meets_spawn_upholds (fun _ _ => True) _ (Nat.pos_of_ne_zero some_worker)
        still ?_ _ start absent (fun _ => trivial) nonempty).mono fun results finish kept => kept.1
      intro index _
      split
      · next item _ =>
          have job : Task.Yields (fsMachine host weather) (fun _ => False)
              (fun here => here.look journal = none) (operation item) fun _ => True :=
            Reads.yields (reads item)
          unfold runJob
          rw [Task.upholds_map]
          exact (Task.Upholds.without job).mono fun _ _ => trivial
      · exact trivial

theorem collectResults_ok {index : Nat} {results : List (Except (ScheduleError WorktreeError) α)}
    {values : List α} (collected : collectResults index results = .ok values) :
    results = values.map .ok := by
  induction results generalizing index values with
  | nil =>
      cases collected
      rfl
  | cons result rest ih =>
      cases result with
      | error failed => cases failed <;> cases collected
      | ok value =>
          obtain ⟨others, among, same⟩ := bind_ok_iff.mp collected
          cases same
          rw [ih among]
          rfl

theorem ordered_length (plan : EditPlan T) : (ordered crates plan).length = plan.files.length := by
  unfold ordered
  rw [List.length_mergeSort, List.length_zipIdx, List.length_map]

theorem tells_result {machine : Machine (Phase FsOp) World} {result : Except WorktreeError α}
    (absent : start.look journal = none) :
    (ExceptT.mk (pure result) : Planning α).run.Meets machine (fun _ _ => True)
      (Tells journal fun value finish =>
        finish.look journal = none ∧ result = .ok value) start := by
  cases result with
  | ok value => exact ⟨absent, rfl⟩
  | error error =>
      intro left
      rw [absent] at left
      cases left

/-- Projecting finds no journal where there is none, and no more files than planned. -/
theorem projectPlan_tells (root : FsRoot) (plan : EditPlan T) (absent : start.look journal = none) :
    (projectPlan crates root options plan).run.Meets (preparing host weather journal).phased
      (fun _ _ => True)
      (Tells journal fun projected finish =>
        finish.look journal = none ∧ projected.length ≤ plan.files.length) start := by
  unfold projectPlan
  refine tells_bind (tells_result absent) fun _ middle kept => ?_
  refine tells_bind (tells_planning (tells_of_reads (preflight_reads root [] 0 _) kept.1))
    fun planned middle kept => ?_
  obtain ⟨gone, counted⟩ := kept
  rw [Task.meets_except_bind, Task.meets_except_lift]
  refine ((mapOrdered_reads (fun target => (projectTarget_reads target).any) gone).and
    (mapOrdered_length planned _ _)).mono
    fun results middle kept => ?_
  obtain ⟨gone, bounded⟩ := kept
  refine tells_bind (tells_result gone) fun projected middle kept => ?_
  obtain ⟨gone, collected⟩ := kept
  have same : results.length = projected.length := by
    rw [collectResults_ok collected, List.length_map]
  refine tells_bind (tells_result gone) fun _ middle kept => ?_
  refine ⟨kept.1, ?_⟩
  rw [ordered_length] at counted
  omega

theorem random_absent {answer : Except IoError Bytes} {finish : World}
    (absent : start.look journal = none)
    (stepped : (fsMachine host weather).step (.io (.random 16)) start answer finish) :
    finish.look journal = none := by
  rcases stepped with executed | ⟨_, _, _, came, _⟩
  · cases executed
    exact absent
  · rcases came with rfl | ⟨rfl, _⟩ | torn
    · exact absent
    · exact absent
    · exact torn.elim

theorem randomId_tells (absent : start.look journal = none) :
    randomId.run.Meets (preparing host weather journal) (fun _ _ => True)
      (Tells journal fun _ finish => finish.look journal = none) start := by
  have drawn : ∀ wrap, (orElse (perform (.random 16)) wrap).run.Meets
      (preparing host weather journal) (fun _ _ => True)
      (Tells journal fun _ finish => finish.look journal = none) start := by
    intro wrap
    unfold orElse
    rw [Task.meets_except_adapt]
    refine ⟨trivial, fun answer finish stepped => ?_⟩
    have gone := random_absent absent stepped.1
    cases answer with
    | ok value => exact gone
    | error error =>
        intro left
        rw [gone] at left
        cases left
  unfold randomId
  exact tells_bind (drawn _) fun bytes middle gone => gone

/-! #### The journal -/

theorem createJournal_tells (place : host.slot control.dir legacyJournal = journal)
    (absent : start.look journal = none) (wrap : IoError → WorktreeError) :
    (orElse control.createJournal wrap).run.Meets (preparing host weather journal)
      (fun _ _ => True)
      (Tells journal fun file finish => ∃ seen, finish.look journal = some seen ∧
        seen.ino = file ∧ seen.inode.bytes = []) start := by
  unfold orElse
  rw [Task.meets_except_adapt]
  refine ⟨trivial, fun answer finish stepped => ?_⟩
  obtain ⟨stepped, careful⟩ := stepped
  cases answer with
  | error error => exact fun left => absurd ⟨place, left⟩ careful
  | ok file =>
      rcases stepped with done | ⟨_, _, impossible, _⟩
      · simp only [FsCall.exec, FsCall.execOpen, place, absent] at done
        cases done
        exact ⟨_, World.look_make_self absent, rfl, rfl⟩
      · cases impossible

theorem sync_tells (place : host.slot control.dir legacyJournal = journal)
    (there : (start.look journal).isSome = true) (wrap : IoError → WorktreeError) :
    (orElse control.sync wrap).run.Meets (preparing host weather journal) (fun _ _ => True)
      (Tells journal fun _ finish => finish = start) start := by
  unfold orElse
  rw [Task.meets_except_adapt]
  refine ⟨trivial, fun answer finish stepped => ?_⟩
  obtain ⟨stepped, careful⟩ := stepped
  have same := (quiet_syncDir control.dir start).2 answer finish stepped
  cases answer with
  | ok value => exact same
  | error error => exact absurd ⟨congrArg Slot.dir place, there⟩ careful

/-- A journal that was just created is empty. -/
theorem newWriter_tells {file : Ino} {seen : Seen} (shows : start.look journal = some seen)
    (same : seen.ino = file) (empty : seen.inode.bytes = [])
    (positive : options.limits.maxJournalBytes ≠ 0) (wrap : JournalError → WorktreeError) :
    (orJournal (JournalWriter.new file options.limits.maxJournalBytes) wrap).run.Meets
      (preparing host weather journal) (fun _ _ => True) (Tells journal fun _ _ => True)
      start := by
  unfold orJournal JournalWriter.new requireLimit
  rw [Task.meets_except_adapt, if_neg positive, Task.meets_except_bind]
  unfold liftJournal journalIo
  rw [ExceptT.run_mk, Task.meets_pure]
  dsimp only
  rw [Task.meets_except_bind]
  rw [Task.meets_except_adapt]
  refine ⟨trivial, fun answer finish stepped => ?_⟩
  obtain ⟨stepped, careful⟩ := stepped
  cases answer with
  | error error => exact absurd ⟨seen, shows, same⟩ careful
  | ok metadata =>
      rcases stepped with done | ⟨_, _, impossible, _⟩
      · have found : start.seen file = seen := by
          rw [← same]
          exact seen_of_look shows
        simp only [FsCall.exec, found] at done
        cases done
        change Task.Meets _ _ (ExceptT.run (if seen.inode.bytes.length ≠ 0 then _ else _)) _ _
        rw [if_neg (by rw [empty]; exact fun other => other rfl)]
        exact trivial
      · cases impossible

theorem createWriter_tells (place : host.slot control.dir legacyJournal = journal)
    (absent : start.look journal = none) (positive : options.limits.maxJournalBytes ≠ 0) :
    (createWriter control options).run.Meets (preparing host weather journal) (fun _ _ => True)
      (Tells journal fun _ _ => True) start := by
  unfold createWriter
  refine tells_bind (createJournal_tells place absent _) fun file middle created => ?_
  obtain ⟨seen, shows, same, empty⟩ := created
  have there : (middle.look journal).isSome = true := by
    rw [shows]
    rfl
  refine tells_bind (sync_tells place there _) fun _ here kept => ?_
  subst kept
  exact newWriter_tells shows same empty positive _

/-! #### With the journal -/

theorem fileCount_raises {count : Nat} (countable : count ≤ u32Max) {kind : WorktreeError → Prop} :
    Task.Raises (liftWorktree (fileCount count)) kind := by
  refine Task.raises_result fun error same => ?_
  unfold fileCount toU32 at same
  rw [if_pos countable] at same
  cases same

theorem appendHeader_signals {plan : EditPlan T} (countable : plan.files.length ≤ u32Max)
    (transactionId : String) :
    Task.Signals (named transactionId (appendHeader crates plan transactionId))
      WorktreeError.Flagged := by
  unfold named
  refine Task.Signals.adapt ?_ fun _ flagged => flagged
  unfold appendHeader
  refine Task.Signals.bind (signals_beside (fileCount_raises countable)) fun _ => ?_
  exact append_signals fun _ => rfl

theorem appendPrepared_signals {count : Nat} (countable : count ≤ u32Max) :
    Task.Signals (appendPrepared crates count) WorktreeError.Flagged := by
  unfold appendPrepared
  refine Task.Signals.bind (signals_beside (fileCount_raises countable)) fun _ => ?_
  exact append_signals fun _ => rfl

theorem finishAborted_tells (place : host.slot control.dir legacyJournal = journal)
    (writer : JournalWriter) :
    ((finishAborted crates control).run.run writer).Meets (preparing host weather journal)
      (fun _ _ => True)
      (fun result => Tells journal (fun _ finish => finish.look journal = none) result.1)
      start := by
  unfold finishAborted
  refine tells_session_bind (tells_of_signals ?_ writer) fun _ after middle _ => ?_
  · exact append_signals fun _ => rfl
  refine tells_beside (honest_preparing (orElse_removeJournal_tells place ?_)) after
  exact fun _ => rfl

theorem declareFiles_gives (transactionId : String) (index : Nat)
    (files : List (ProjectedTarget T)) :
    Task.Gives (declareFiles crates transactionId index files)
      fun jobs => jobs.map StageJob.file = files := by
  have any : ∀ {γ : Type} (program : Journaled γ), Task.Gives program fun _ => True :=
    fun _ => Task.gives_any fun _ => trivial
  induction files generalizing index with
  | nil =>
      intro own value same
      cases same
      rfl
  | cons file rest ih =>
      unfold declareFiles
      refine Task.Gives.bind (any _) fun _ _ => ?_
      refine Task.Gives.bind (any _) fun _ _ => ?_
      refine Task.Gives.bind (any _) fun _ _ => ?_
      refine Task.Gives.bind (any _) fun _ _ => ?_
      refine Task.Gives.bind (ih _) fun jobs declared => ?_
      intro own value same
      cases same
      rw [List.map_cons, declared]

theorem sortStaged_length (index : Nat)
    (results : List (Except (ScheduleError WorktreeError) StagedFile)) :
    (sortStaged index results).1.length ≤ results.length := by
  induction results generalizing index with
  | nil => exact Nat.le_refl _
  | cons result rest ih =>
      have below := ih (index + 1)
      cases result with
      | ok value => exact Nat.succ_le_succ below
      | error failed => cases failed <;> exact Nat.le_succ_of_le below

theorem collectStaged_gives (results : List (Except (ScheduleError WorktreeError) StagedFile))
    (artifacts : List ArtifactRef) :
    Task.Gives (beside (collectStaged results artifacts))
      fun staged => staged.length ≤ results.length := by
  have short := sortStaged_length 0 results
  intro own
  unfold collectStaged
  split
  · next staged sorted =>
      intro value same
      cases same
      rw [sorted] at short
      exact short
  · next error sorted =>
      change ((beside (cleanupArtifacts artifacts >>= fun _ => throw error) :
        Journaled (List StagedFile)).run.run own).Ends _
      unfold beside
      rw [ExceptT.run_mk, StateT.run_lift, Task.ends_bind, ExceptT.run_bind, Task.ends_bind]
      refine Task.ends_any fun result => ?_
      cases result with
      | ok value =>
          intro found same
          cases same
      | error error =>
          intro found same
          cases same

/-- No more files are staged than were projected. -/
theorem stageAll_length {machine : Machine FsOp World} (files : List (ProjectedTarget T))
    (transactionId : String) (writer : JournalWriter) :
    ((stageAll crates files transactionId options).run.run writer).Meets machine.phased
      (fun _ _ => True)
      (fun result _ => ∀ staged, result.1 = .ok staged → staged.length ≤ files.length)
      start := by
  unfold stageAll
  rw [Task.meets_session_bind]
  have declared : ((declareFiles crates transactionId 0 files).planning.run.run writer).Meets
      machine.phased (fun _ _ => True)
      (fun result _ => ∀ jobs, result.1 = .ok jobs → jobs.map StageJob.file = files) start :=
    (Task.meets_phase machine _ _ _ start).mpr
      (Task.Ends.meets (declareFiles_gives transactionId 0 files writer) start)
  refine declared.mono fun result middle listed => ?_
  obtain ⟨error | jobs, after⟩ := result
  · intro staged same
    cases same
  · have many : jobs.length = files.length := by
      rw [← listed jobs rfl, List.length_map]
    dsimp only
    rw [Task.meets_session_bind, Task.meets_session_task]
    refine (mapOrdered_length jobs _ _).mono fun results middle short => ?_
    have collected : ((beside (collectStaged results (jobs.map fun job =>
        ⟨job.file.access, job.stageName, job.backupName⟩))).run.run after).Meets machine
        (fun _ _ => True) _ middle := Task.Ends.meets (collectStaged_gives results _ after) middle
    refine (Task.meets_phase machine _ _ _ middle).mpr
      (collected.mono fun result finish among => ?_)
    intro staged same
    have fewer := among staged same
    omega

theorem stageOrAbort_tells (place : host.slot control.dir legacyJournal = journal)
    (files : List (ProjectedTarget T)) (transactionId : String) (writer : JournalWriter) :
    ((stageOrAbort crates control files transactionId options).run.run writer).Meets
      (preparing host weather journal).phased (fun _ _ => True)
      (fun result => Tells journal (fun staged _ => staged.length ≤ files.length) result.1)
      start := by
  unfold stageOrAbort
  rw [Task.meets_session_bind, ExceptT.run_lift, StateT.run_map, Task.meets_map]
  refine (stageAll_length files transactionId writer).mono fun result middle short => ?_
  obtain ⟨error | staged, after⟩ := result
  · change Task.Meets _ _ (StateT.run (ExceptT.run (if error.recoveryRequired = true then _ else _))
      after) _ middle
    split
    · next flagged => exact fun _ => flagged
    · refine tells_session_bind (tells_journaled_planning (finishAborted_tells place after))
        fun _ after finish gone => ?_
      intro left
      have absent : finish.look journal = none := gone
      rw [absent] at left
      cases left
  · exact short staged rfl

theorem prepareJournaled_tells (place : host.slot control.dir legacyJournal = journal)
    {plan : EditPlan T} (countable : plan.files.length ≤ u32Max)
    {files : List (ProjectedTarget T)} (counted : files.length ≤ plan.files.length)
    (transactionId : String) (writer : JournalWriter) :
    ((prepareJournaled crates plan control files transactionId options).run.run writer).Meets
      (preparing host weather journal).phased (fun _ _ => True)
      (fun result => Tells journal (fun _ _ => True) result.1) start := by
  unfold prepareJournaled
  refine tells_session_bind (tells_journaled_planning (tells_of_signals
    (appendHeader_signals countable transactionId) writer)) fun _ after middle _ => ?_
  refine tells_session_bind (stageOrAbort_tells place files transactionId after)
    fun staged after middle short => ?_
  have few : staged.length ≤ u32Max := by omega
  refine tells_session_bind (tells_journaled_planning (tells_of_signals
    (appendPrepared_signals few) after)) fun _ after middle _ => ?_
  exact trivial

theorem prepareLocked_tells (root : FsRoot) {plan : EditPlan T} {locked : TransactionLock}
    (place : host.slot locked.control.dir legacyJournal = journal)
    (countable : plan.files.length ≤ u32Max) (positive : options.limits.maxJournalBytes ≠ 0) :
    (prepareLocked crates root options plan locked).run.Meets
      (preparing host weather journal).phased (fun _ _ => True) (Tells journal fun _ _ => True)
      start := by
  unfold prepareLocked
  refine tells_bind (tells_planning (findPending_tells place)) fun pending middle absent => ?_
  cases pending with
  | true => exact fun _ => rfl
  | false =>
      change Task.Meets _ _ (ExceptT.run (projectPlan crates root options plan >>= _)) _ middle
      refine tells_bind (projectPlan_tells root plan (absent rfl)) fun projected middle kept => ?_
      obtain ⟨gone, counted⟩ := kept
      refine tells_bind (tells_planning (randomId_tells gone)) fun transactionId middle gone => ?_
      refine tells_bind (tells_planning (createWriter_tells place gone positive))
        fun writer middle _ => ?_
      rw [Task.meets_except_bind, Task.meets_except_lift]
      refine (prepareJournaled_tells place countable counted transactionId writer).mono
        fun result finish told => ?_
      obtain ⟨error | files, after⟩ := result
      · exact told
      · exact trivial

end

/-! ### Recovering -/

/-- The records of a file that is put back. -/
def restores : JournalRecord → Bool
  | .rollbackIntent _ => true
  | .rolledBack _ => true
  | _ => false

namespace Recovery

section

variable {T : Type} (crates : Crates T) (options : WorktreeOptions) (found : Option Seen)

/-- The journal found at the start can be read. -/
def Legible : Prop :=
  ∀ seen, found = some seen → seen.inode.bytes.length ≤ options.limits.maxJournalBytes ∧
    ∃ entries, parseBytes crates seen.inode.bytes = .ok entries

/-- The journal found at the start announces a change. -/
def Announces : Prop :=
  ∃ seen entries, found = some seen ∧ parseBytes crates seen.inode.bytes = .ok entries ∧
    ∃ index, JournalRecord.commitIntent index ∈ entries.map JournalEntry.record

def IsJournal (file : Ino) : Prop :=
  ∃ seen, found = some seen ∧ seen.ino = file

/-- A line that announces or confirms that a file is put back. -/
def RestoringLine (line : Bytes) : Prop :=
  ∃ seq record, restores record = true ∧ line = JournalWriter.line crates seq record

/-- The answers after which a failed recovery may hide that its journal is left. -/
def Mishap : {ρ : Type} → FsOp ρ → World → ρ → World → Prop
  | _, .io (.metadata file), _, .error _, _ => IsJournal found file
  | _, .io (.cloneHandle file), _, .error _, _ => IsJournal found file
  | _, .io (.read file _), _, .error _, _ => IsJournal found file
  | _, .io (.setLength file _), _, .error _, _ => IsJournal found file
  | _, .io (.write file line), _, .error _, _ => IsJournal found file ∧ RestoringLine crates line
  | _, .io (.syncFile file), start, .error _, _ =>
      IsJournal found file ∧ ∃ before line, RestoringLine crates line ∧
        (start.inodes file).bytes = before ++ line
  | _, .refuseAppend, _, _, _ => Announces crates found
  | _, _, _, _, _ => False

/-- The machine without them. -/
abbrev recovering (host : Host) (weather : Weather) : Machine FsOp World :=
  (fsMachine host weather).without (Mishap crates found)

/-- A writer that was resumed on the journal. -/
structure Steady (writer : JournalWriter) : Prop where
  file : IsJournal found writer.file
  sound : writer.poisoned = false
  begun : 0 < writer.nextSeq
  counted : writer.nextSeq ≤ writer.bytes
  bounded : writer.maxBytes < u64Max

end

variable {T : Type} {crates : Crates T} {options : WorktreeOptions} {found : Option Seen}
  {host : Host} {weather : Weather} {start : World} {α β : Type}

/-! #### Records -/

theorem validateOrder_restores {seq line : Nat} {record : JournalRecord} (begun : 0 < seq)
    (restoring : restores record = true) : validateOrder seq record line = .ok () := by
  cases seq with
  | zero => cases begun
  | succ seq => cases record <;> first | rfl | cases restoring

theorem line_positive (seq : Nat) (record : JournalRecord) :
    0 < (JournalWriter.line crates seq record).length := by
  unfold JournalWriter.line
  rw [List.length_append]
  exact Nat.succ_pos _

/-- Without mishaps a record about a file that is put back is always written. -/
theorem append_steady {record : JournalRecord} (restoring : restores record = true)
    (announces : Announces crates found) (wrap : JournalError → WorktreeError)
    {writer : JournalWriter} (steady : Steady found writer) :
    ((appendOr crates record wrap).run.run writer).Meets (recovering crates found host weather)
      (fun _ _ => True) (fun result _ => result.1 = .ok () ∧ Steady found result.2) start := by
  obtain ⟨journal, sound, begun, counted, bounded⟩ := steady
  have line : RestoringLine crates (JournalWriter.line crates writer.nextSeq record) :=
    ⟨writer.nextSeq, record, restoring, rfl⟩
  have longer : 0 < (JournalWriter.line crates writer.nextSeq record).length :=
    line_positive writer.nextSeq record
  unfold appendOr
  rw [ExceptT.run_adapt, StateT.run_map, Task.meets_map, Task.meets_session_bind]
  unfold JournalWriter.append
  rw [Task.meets_session_bind, Task.meets_session_get]
  have usable : ¬ writer.poisoned = true := by
    rw [sound]
    exact Bool.false_ne_true
  simp only [if_neg usable]
  rw [Task.meets_session_bind, Task.meets_session_result, validateOrder_restores begun restoring]
  dsimp only
  split
  · rw [Task.meets_session_bind, Task.meets_session_task, Task.meets_perform]
    exact ⟨trivial, fun answer finish stepped => absurd announces stepped.2⟩
  · next fits =>
      rw [Task.meets_session_bind, Task.meets_session_set]
      dsimp only
      rw [Task.meets_session_bind, Task.meets_session_lift]
      unfold journalIo
      rw [Task.meets_except_adapt]
      refine ⟨trivial, fun answer middle stepped => ?_⟩
      obtain ⟨stepped, careful⟩ := stepped
      cases answer with
      | error error => exact absurd ⟨journal, line⟩ careful
      | ok value =>
          rcases stepped with done | ⟨_, _, impossible, _⟩
          · cases done
            rw [Task.meets_done]
            dsimp only [Except.mapError]
            rw [Task.meets_session_bind, Task.meets_session_lift, Task.meets_except_adapt]
            refine ⟨trivial, fun answer finish stepped => ?_⟩
            obtain ⟨stepped, careful⟩ := stepped
            cases answer with
            | error error =>
                refine absurd ⟨journal, (start.inodes writer.file).bytes, _, line, ?_⟩ careful
                unfold World.append World.setInode
                dsimp only
                rw [Function.update_self]
            | ok value =>
                have small : saturatingAdd writer.bytes
                    (JournalWriter.line crates writer.nextSeq record).length ≤ writer.maxBytes :=
                  Nat.le_of_not_lt fits
                have total : saturatingAdd writer.bytes
                    (JournalWriter.line crates writer.nextSeq record).length =
                    writer.bytes + (JournalWriter.line crates writer.nextSeq record).length := by
                  unfold saturatingAdd at small ⊢
                  omega
                have counts : checkedAdd writer.nextSeq 1 = some (writer.nextSeq + 1) := by
                  unfold checkedAdd
                  rw [if_pos (by omega)]
                rw [counts]
                refine ⟨rfl, journal, rfl, Nat.succ_pos _, ?_, bounded⟩
                change writer.nextSeq + 1 ≤ saturatingAdd _ _
                omega
          · cases impossible

/-- An error of the session is flagged, whatever happened to the file system, and
its writer stays steady. -/
def Warns (program : Journaled α) (host : Host) (weather : Weather) (crates : Crates T)
    (found : Option Seen) : Prop :=
  ∀ writer start, Steady found writer →
    (program.run.run writer).Meets (recovering crates found host weather) (fun _ _ => True)
      (fun result _ => match result with
        | (.ok _, after) => Steady found after
        | (.error error, _) => error.Flagged) start

theorem Warns.bind {program : Journaled α} {next : α → Journaled β}
    (first : Warns program host weather crates found)
    (second : ∀ value, Warns (next value) host weather crates found) :
    Warns (program >>= next) host weather crates found := by
  intro writer start steady
  rw [Task.meets_session_bind]
  refine (first writer start steady).mono fun result middle ended => ?_
  obtain ⟨error | value, after⟩ := result
  · exact ended
  · exact second value after middle ended

theorem warns_beside {program : Action α} (raises : Task.Raises program WorktreeError.Flagged) :
    Warns (beside program) host weather crates found := by
  intro writer start steady
  unfold beside
  rw [Task.meets_session_lift]
  refine (Task.Ends.meets raises start).mono fun result finish kinds => ?_
  cases result with
  | ok value => exact steady
  | error error => exact kinds error rfl

theorem warns_append {record : JournalRecord} (restoring : restores record = true)
    (announces : Announces crates found) (wrap : JournalError → WorktreeError) :
    Warns (appendOr crates record wrap) host weather crates found := by
  intro writer start steady
  refine (append_steady restoring announces wrap steady).mono fun result finish ended => ?_
  obtain ⟨error | value, after⟩ := result
  · cases ended.1
  · exact ended.2

theorem warns_pure (value : α) : Warns (pure value) host weather crates found :=
  fun _ _ steady => steady

theorem warns_throw {error : WorktreeError} (flagged : error.Flagged) :
    Warns (throw error : Journaled α) host weather crates found :=
  fun _ _ _ => flagged

theorem warns_forM {items : List β} {body : β → Journaled PUnit}
    (round : ∀ item, Warns (body item) host weather crates found) :
    Warns (items.forM body) host weather crates found := by
  induction items with
  | nil => exact warns_pure _
  | cons item rest ih => exact Warns.bind (round item) fun _ => ih

theorem restoreFile_warns (announces : Announces crates found) (file : RecoveryFile) :
    Warns (restoreFile crates options file) host weather crates found := by
  unfold restoreFile
  refine Warns.bind (warns_beside (verifyArtifact_raises _ _ _ _ _ (by decide))) fun _ => ?_
  refine Warns.bind (warns_append rfl announces _) fun _ => ?_
  refine Warns.bind (warns_beside (Task.raises_adapt fun _ => rfl)) fun _ => ?_
  exact warns_append rfl announces _

theorem targetHash_raises (file : RecoveryFile) (maxBytes : Nat) :
    Task.Raises (targetHash crates file maxBytes) WorktreeError.Flagged := by
  unfold targetHash
  exact Task.Raises.bind (Task.raises_adapt fun _ => rfl) fun _ => Task.raises_pure _

theorem rollbackFile_warns (announces : Announces crates found) (intents : List Nat)
    (file : RecoveryFile) :
    Warns (rollbackFile crates options intents file) host weather crates found := by
  unfold rollbackFile
  split
  · exact warns_pure _
  · refine Warns.bind (warns_beside (targetHash_raises file _)) fun current => ?_
    split
    · exact warns_pure _
    · split
      · exact warns_throw rfl
      · exact restoreFile_warns announces file

/-! #### Going on from the journal -/

theorem verifyFinished_raises (parsed : ParsedJournal) (committed : Bool) :
    Task.Raises (verifyFinished crates parsed options committed) WorktreeError.Flagged := by
  unfold verifyFinished
  refine Task.raises_forM fun file _ => ?_
  split
  · exact Task.raises_pure _
  · exact Task.raises_adapt fun _ => rfl

/-- The errors of a session whose writer is dropped after it. -/
theorem flagged_of_signals {program : Journaled α} {machine : Machine FsOp World}
    (signals : Task.Signals program WorktreeError.Flagged) (writer : JournalWriter) :
    (program.run.run writer).Meets machine (fun _ _ => True)
      (fun result _ => ∀ error, result.1 = .error error → error.Flagged) start :=
  Task.Ends.meets (signals writer) start

theorem recoverState_flagged {parsed : ParsedJournal} {writer : JournalWriter}
    (announces : parsed.commitIntents ≠ [] → Announces crates found)
    (steady : Steady found writer) :
    ((recoverState crates parsed options).run.run writer).Meets
      (recovering crates found host weather)
      (fun _ _ => True) (fun result _ => ∀ error, result.1 = .error error → error.Flagged)
      start := by
  have plain : ∀ action : RecoveryAction,
      Task.Signals (pure action : Journaled RecoveryAction) WorktreeError.Flagged := by
    intro action own error same
    cases same
  have checked : ∀ (committed : Bool) (action : RecoveryAction),
      Task.Signals (do
        beside (verifyFinished crates parsed options committed)
        return action : Journaled RecoveryAction) WorktreeError.Flagged :=
    fun committed action => Task.Signals.bind (signals_beside (verifyFinished_raises _ _))
      fun _ => plain action
  have finished : ∀ outcome (action : RecoveryAction),
      Task.Signals (do
        appendFinished crates outcome
        return action : Journaled RecoveryAction) WorktreeError.Flagged :=
    fun outcome action => Task.Signals.bind (append_signals fun _ => rfl) fun _ => plain action
  unfold recoverState
  split
  · exact flagged_of_signals (checked true _) writer
  · exact flagged_of_signals (checked false _) writer
  · split
    · exact flagged_of_signals (finished .aborted _) writer
    · next intends =>
        have restored :
            Warns (rollbackUnfinished crates parsed options) host weather crates found := by
          refine warns_forM fun file => rollbackFile_warns (announces fun none => ?_) _ file
          rw [none] at intends
          exact intends rfl
        rw [Task.meets_session_bind]
        refine (restored writer start steady).mono fun result middle ended => ?_
        obtain ⟨error | value, after⟩ := result
        · intro error same
          cases same
          exact ended
        · exact flagged_of_signals (finished .rolledBack _) after

/-! #### Reading the journal -/

theorem length_splitOn (bytes : Bytes) :
    (bytes.splitOn newline).length ≤ bytes.length + 1 := by
  induction bytes with
  | nil => exact Nat.le_refl _
  | cons byte rest ih =>
      rw [List.splitOn_cons_eq_if_modifyHead]
      split
      · exact Nat.succ_le_succ ih
      · rw [List.length_modifyHead]
        exact Nat.le_succ_of_le ih

theorem parseLines_length {expected : Nat} {lines : List Bytes} {entries : List JournalEntry}
    (parsed : parseLines crates expected lines = .ok entries) : entries.length = lines.length := by
  induction lines generalizing expected entries with
  | nil =>
      cases parsed
      rfl
  | cons line rest ih =>
      obtain ⟨entry, _, more⟩ := bind_ok_iff.mp parsed
      obtain ⟨others, among, same⟩ := bind_ok_iff.mp more
      cases same
      rw [List.length_cons, List.length_cons, ih among]

/-- There are no more entries than bytes in complete lines. -/
theorem parseBytes_length {bytes : Bytes} {entries : List JournalEntry}
    (parsed : parseBytes crates bytes = .ok entries) :
    entries.length ≤ (lastNewline bytes).elim 0 (· + 1) := by
  unfold parseBytes at parsed
  split at parsed
  · next missing =>
      cases parsed
      exact Nat.zero_le _
  · next last place =>
      rw [place, parseLines_length parsed]
      have split := length_splitOn (bytes.take last)
      have short := List.length_take_le last bytes
      change _ ≤ last + 1
      omega

section

variable {journal : Slot} {seen : Seen}

/-- A call whose failure would be a mishap answers as it does when nothing fails. -/
theorem journalIo_bind {τ : Type} {call : FsCall τ} {value : τ} {middle : World}
    {next : τ → JournalIo α} {post : Except JournalError α → World → Prop}
    (executes : call.exec host start = (.ok value, middle))
    (must : ∀ error finish, Mishap crates found (.io call) start (.error error) finish)
    (rest : (next value).run.Meets (recovering crates found host weather) (fun _ _ => True) post
      middle) :
    (journalIo call >>= next).run.Meets (recovering crates found host weather) (fun _ _ => True)
      post start := by
  unfold journalIo
  rw [Task.meets_except_bind, Task.meets_except_adapt]
  refine ⟨trivial, fun answer finish stepped => ?_⟩
  obtain ⟨stepped, careful⟩ := stepped
  cases answer with
  | error error => exact absurd (must error finish) careful
  | ok found =>
      rcases stepped with done | ⟨_, _, impossible, _⟩
      · rw [executes] at done
        cases done
        exact rest
      · cases impossible

/-- Without mishaps a legible journal is read. -/
theorem readJournal_bind {next : List JournalEntry → JournalIo α}
    {post : Except JournalError α → World → Prop} (shows : start.look journal = some seen)
    (kind : seen.inode.kind = .file) {entries : List JournalEntry}
    (short : seen.inode.bytes.length ≤ options.limits.maxJournalBytes)
    (parsed : parseBytes crates seen.inode.bytes = .ok entries)
    (positive : options.limits.maxJournalBytes ≠ 0)
    (bounded : options.limits.maxJournalBytes < u64Max)
    (rest : (next entries).run.Meets (recovering crates (some seen) host weather)
      (fun _ _ => True) post start) :
    (readJournal crates seen.ino options.limits.maxJournalBytes >>= next).run.Meets
      (recovering crates (some seen) host weather) (fun _ _ => True) post start := by
  have here : IsJournal (some seen) seen.ino := ⟨seen, rfl, rfl⟩
  have file : ¬ seen.inode.kind = .directory := by
    rw [kind]
    decide
  have limit : saturatingAdd options.limits.maxJournalBytes 1 =
      options.limits.maxJournalBytes + 1 := by
    unfold saturatingAdd
    omega
  have described : (FsCall.metadata seen.ino).exec host start = (.ok seen.metadata, start) := by
    simp only [FsCall.exec, seen_of_look shows]
  have answered : (FsCall.read seen.ino (options.limits.maxJournalBytes + 1)).exec host start =
      (.ok seen.inode.bytes, start) := by
    simp only [FsCall.exec, inode_of_look shows, if_neg file, take_whole short]
  have fits : ¬ seen.metadata.length > options.limits.maxJournalBytes := Nat.not_lt_of_le short
  have whole : ¬ seen.inode.bytes.length > options.limits.maxJournalBytes :=
    Nat.not_lt_of_le short
  rw [Task.meets_except_bind]
  unfold readJournal requireLimit
  rw [if_neg positive, limit, Task.meets_except_bind]
  unfold liftJournal
  rw [ExceptT.run_mk, Task.meets_pure]
  dsimp only
  refine journalIo_bind described (fun _ _ => here) ?_
  rw [if_neg fits]
  refine journalIo_bind rfl (fun _ _ => here) ?_
  refine journalIo_bind answered (fun _ _ => here) ?_
  rw [if_neg whole, parsed]
  exact rest

/-- Without mishaps the writer is resumed. -/
theorem resume_meets (shows : start.look journal = some seen) (kind : seen.inode.kind = .file)
    {entries : List JournalEntry}
    (short : seen.inode.bytes.length ≤ options.limits.maxJournalBytes)
    (parsed : parseBytes crates seen.inode.bytes = .ok entries) (begun : entries ≠ [])
    (positive : options.limits.maxJournalBytes ≠ 0)
    (bounded : options.limits.maxJournalBytes < u64Max) :
    (JournalWriter.resume crates seen.ino options.limits.maxJournalBytes).run.Meets
      (recovering crates (some seen) host weather) (fun _ _ => True)
      (fun result _ => ∃ writer, result = .ok writer ∧ Steady (some seen) writer) start := by
  have here : IsJournal (some seen) seen.ino := ⟨seen, rfl, rfl⟩
  have file : ¬ seen.inode.kind = .directory := by
    rw [kind]
    decide
  have limit : saturatingAdd options.limits.maxJournalBytes 1 =
      options.limits.maxJournalBytes + 1 := by
    unfold saturatingAdd
    omega
  have answered : (FsCall.read seen.ino (options.limits.maxJournalBytes + 1)).exec host start =
      (.ok seen.inode.bytes, start) := by
    simp only [FsCall.exec, inode_of_look shows, if_neg file, take_whole short]
  have whole : ¬ seen.inode.bytes.length > options.limits.maxJournalBytes :=
    Nat.not_lt_of_le short
  unfold JournalWriter.resume
  rw [limit]
  refine readJournal_bind shows kind short parsed positive bounded ?_
  refine journalIo_bind answered (fun _ _ => here) ?_
  rw [if_neg whole]
  refine journalIo_bind rfl (fun _ _ => here) ?_
  exact ⟨_, rfl, here, rfl, List.length_pos_of_ne_nil begun, parseBytes_length parsed, bounded⟩

end

/-! #### Replaying the records -/

theorem replay_error {fileCount : Nat} {state : Replayed} {record : JournalRecord}
    {error : WorktreeError} (failed : replay fileCount state record = .error error) :
    error.Flagged := by
  cases record with
  | header =>
      simp only [replay] at failed
      split at failed <;> cases failed <;> rfl
  | finished outcome =>
      simp only [replay] at failed
      split at failed <;> cases failed
      rfl
  | _ =>
      simp only [replay] at failed
      split at failed
      · cases failed
        rfl
      · split at failed <;> cases failed
        rfl

theorem replay_intents {fileCount : Nat} {state next : Replayed} {record : JournalRecord}
    (replayed : replay fileCount state record = .ok next) :
    next.intents = state.intents ∨ ∃ index, record = .commitIntent index := by
  cases record with
  | header =>
      simp only [replay] at replayed
      split at replayed <;> cases replayed
  | finished outcome =>
      simp only [replay] at replayed
      split at replayed <;> cases replayed
      exact .inl rfl
  | commitIntent index => exact .inr ⟨index, rfl⟩
  | _ =>
      simp only [replay] at replayed
      split at replayed
      · cases replayed
      · split at replayed <;> cases replayed
        exact .inl rfl

theorem replays_error {fileCount : Nat} {records : List JournalRecord} {state : Replayed}
    {error : WorktreeError} (failed : records.foldlM (replay fileCount) state = .error error) :
    error.Flagged := by
  induction records generalizing state with
  | nil => cases failed
  | cons record rest ih =>
      rw [List.foldlM_cons] at failed
      cases replayed : replay fileCount state record with
      | error found =>
          rw [replayed] at failed
          cases failed
          exact replay_error replayed
      | ok next =>
          rw [replayed] at failed
          exact ih failed

theorem replays_intents {fileCount : Nat} {records : List JournalRecord} {state last : Replayed}
    (replayed : records.foldlM (replay fileCount) state = .ok last)
    (announced : last.intents ≠ []) :
    state.intents ≠ [] ∨ ∃ index, JournalRecord.commitIntent index ∈ records := by
  induction records generalizing state with
  | nil =>
      cases replayed
      exact .inl announced
  | cons record rest ih =>
      rw [List.foldlM_cons] at replayed
      obtain ⟨next, first, others⟩ := bind_ok_iff.mp replayed
      rcases ih others with some_intent | ⟨index, among⟩
      · rcases replay_intents first with same | ⟨index, same⟩
        · rw [same] at some_intent
          exact .inl some_intent
        · exact .inr ⟨index, same ▸ List.mem_cons_self⟩
      · exact .inr ⟨index, List.mem_cons_of_mem _ among⟩

theorem recoveryFile_raises (root : FsRoot) (record : JournalRecord) :
    Task.Raises (recoveryFile crates root options record) WorktreeError.Flagged := by
  have hashed : ∀ (text message : String), Task.Raises
      (liftWorktree (fromOption (Sha256Hash.parse text) (corrupt message)))
      WorktreeError.Flagged := by
    intro text message
    refine Task.raises_result fun error same => ?_
    cases parsed : Sha256Hash.parse text with
    | some hash =>
        rw [parsed] at same
        cases same
    | none =>
        rw [parsed] at same
        cases same
        rfl
  unfold recoveryFile
  split
  · refine Task.raises_ite (fun _ => Task.raises_throw rfl) fun _ => ?_
    refine Task.Raises.bind (Task.raises_adapt fun _ => rfl) fun access => ?_
    refine Task.Raises.bind (hashed _ _) fun _ => ?_
    refine Task.Raises.bind (hashed _ _) fun _ => ?_
    exact Task.raises_pure _
  · exact Task.raises_throw rfl

theorem recoveryFiles_raises (root : FsRoot) (records : List JournalRecord) :
    Task.Raises (recoveryFiles crates root options records) WorktreeError.Flagged := by
  induction records with
  | nil =>
      unfold recoveryFiles
      exact Task.raises_pure _
  | cons record rest ih =>
      unfold recoveryFiles
      refine Task.Raises.bind (recoveryFile_raises root record) fun _ => ?_
      exact Task.Raises.bind ih fun _ => Task.raises_pure _

theorem recoveryFile_reads (root : FsRoot) (record : JournalRecord) :
    Reads host weather (recoveryFile crates root options record) fun _ => True := by
  unfold recoveryFile
  split
  · refine yields_check fun _ => ?_
    refine Task.Yields.bind (Task.yields_adapt (Reads.any (openTarget_reads _ _))) fun _ _ => ?_
    refine Task.Yields.bind liftWorktree_any fun _ _ => ?_
    refine Task.Yields.bind liftWorktree_any fun _ _ => ?_
    exact Task.yields_pure _ trivial
  · exact Task.yields_throw _

theorem recoveryFiles_reads (root : FsRoot) (records : List JournalRecord) :
    Reads host weather (recoveryFiles crates root options records) fun _ => True := by
  induction records with
  | nil =>
      unfold recoveryFiles
      exact Task.yields_pure _ trivial
  | cons record rest ih =>
      unfold recoveryFiles
      refine Task.Yields.bind (recoveryFile_reads root record) fun _ _ => ?_
      exact Task.Yields.bind ih fun _ _ => Task.yields_pure _ trivial

theorem parseJournal_raises (root : FsRoot) (first : JournalEntry) (rest : List JournalEntry) :
    Task.Raises (parseJournal crates root options first rest) WorktreeError.Flagged := by
  unfold parseJournal
  split
  · refine Task.raises_ite (fun _ => Task.raises_throw rfl) fun _ => ?_
    refine Task.Raises.bind (Task.raises_result fun _ => replays_error) fun state => ?_
    exact Task.Raises.bind (recoveryFiles_raises root _) fun _ => Task.raises_pure _
  · exact Task.raises_throw rfl

/-- The commits a parsed journal announces are announced by its records. -/
theorem parseJournal_intents (root : FsRoot) (first : JournalEntry) (rest : List JournalEntry) :
    Reads host weather (parseJournal crates root options first rest)
      fun parsed => parsed.commitIntents ≠ [] →
        ∃ index, JournalRecord.commitIntent index ∈ rest.map JournalEntry.record := by
  unfold parseJournal
  split
  · refine yields_check fun _ => ?_
    refine Task.Yields.bind (Task.yields_result _ fun _ => id) fun state replayed => ?_
    refine Task.Yields.bind (recoveryFiles_reads root _) fun files _ => ?_
    refine Task.yields_pure _ fun announced => ?_
    rcases replays_intents replayed announced with impossible | among
    · exact absurd rfl impossible
    · exact among
  · exact Task.yields_throw _

/-! #### The whole recovery -/

section

variable {journal : Slot} {seen : Seen} {control : ControlDir}

theorem removeRecovered_raises (file : RecoveryFile) (name : String) :
    Task.Raises (removeRecovered file name) WorktreeError.Flagged := by
  unfold removeRecovered
  exact Task.Raises.bind (Task.raises_adapt fun _ => rfl) fun _ => Task.raises_pure _

theorem cleanupRecovered_raises (files : List RecoveryFile) :
    Task.Raises (cleanupRecovered files) WorktreeError.Flagged := by
  induction files with
  | nil => exact Task.raises_pure _
  | cons file rest ih =>
      unfold cleanupRecovered
      refine Task.Raises.bind (removeRecovered_raises _ _) fun _ => ?_
      refine Task.Raises.bind (removeRecovered_raises _ _) fun _ => ?_
      exact Task.Raises.bind ih fun _ => Task.raises_pure _

theorem recoverEntries_tells (root : FsRoot) {first : JournalEntry} {rest : List JournalEntry}
    (shows : start.look journal = some seen) (kind : seen.inode.kind = .file)
    (short : seen.inode.bytes.length ≤ options.limits.maxJournalBytes)
    (parsed : parseBytes crates seen.inode.bytes = .ok (first :: rest))
    (positive : options.limits.maxJournalBytes ≠ 0)
    (bounded : options.limits.maxJournalBytes < u64Max) :
    (recoverEntries crates root options control seen.ino first rest).run.Meets
      (recovering crates (some seen) host weather) (fun _ _ => True) (Tells journal fun _ _ => True)
      start := by
  unfold recoverEntries
  have understood : (parseJournal crates root options first rest).run.Meets
      (recovering crates (some seen) host weather) (fun _ _ => True)
      (Tells journal fun found finish => finish = start ∧
        (found.commitIntents ≠ [] → Announces crates (some seen))) start := by
    have read : (parseJournal crates root options first rest).run.Meets
        (recovering crates (some seen) host weather) (fun _ _ => True) _ start :=
      Task.Meets.without (meets_of_yields (Reads.yields (parseJournal_intents root first rest))
        fun _ _ => trivial)
    refine (read.and (Task.Ends.meets (parseJournal_raises root first rest) start)).mono
      fun result finish ended => ?_
    obtain ⟨⟨rfl, intents⟩, kinds⟩ := ended
    cases result with
    | error error => exact fun _ => kinds error rfl
    | ok found =>
        refine ⟨rfl, fun announced => ?_⟩
        obtain ⟨index, among⟩ := intents found rfl announced
        exact ⟨seen, first :: rest, rfl, parsed, index, List.mem_cons_of_mem _ among⟩
  refine tells_bind understood fun found middle kept => ?_
  obtain ⟨rfl, announces⟩ := kept
  rw [Task.meets_except_bind]
  unfold orJournal
  rw [Task.meets_except_adapt]
  refine (resume_meets shows kind short parsed (List.cons_ne_nil _ _) positive bounded).mono
    fun result middle resumed => ?_
  obtain ⟨writer, rfl, steady⟩ := resumed
  dsimp only [Except.mapError]
  rw [Task.meets_except_bind, ExceptT.run_mk, CrashLogic.Task.meets_bind]
  refine (recoverState_flagged announces steady).mono fun result middle flagged => ?_
  obtain ⟨error | action, after⟩ := result
  · exact fun _ => flagged error rfl
  · refine tells_of_raises (Task.Raises.bind (cleanupRecovered_raises _) fun removed => ?_)
    exact Task.Raises.bind (Task.raises_adapt fun _ => rfl) fun _ => Task.raises_pure _

theorem openJournal_meets (place : host.slot control.dir legacyJournal = journal) :
    (orElse control.openJournal recoveryIo).run.Meets
      (recovering crates (start.look journal) host weather) (fun _ _ => True)
      (Tells journal fun found finish => ∀ file, found = some file → finish = start ∧
        ∃ seen, start.look journal = some seen ∧ seen.ino = file ∧ seen.inode.kind = .file)
      start := by
  unfold orElse ControlDir.openJournal ControlDir.openNamedJournal
  rw [Task.meets_except_adapt, Task.meets_except_bind]
  unfold attempt
  rw [Task.meets_except_lift]
  refine ⟨trivial, fun answer finish stepped => ?_⟩
  cases answer with
  | ok file =>
      intro opened same
      cases same
      rcases stepped.1 with done | ⟨_, _, impossible, _⟩
      · simp only [FsCall.exec, FsCall.execOpen, place] at done
        split at done
        · cases done
        · next seen shows =>
            split at done
            · next kind =>
                cases done
                exact ⟨rfl, seen, shows, rfl, kind⟩
            · cases done
            · cases done
      · cases impossible
  | error error =>
      change Task.Meets _ _ (ExceptT.run
        (if error.kind = .notFound then pure none else throw error : Io (Option Ino))) _ finish
      split
      · intro file impossible
        cases impossible
      · exact fun _ => rfl

theorem recoverLocked_tells (root : FsRoot) (place : host.slot control.dir legacyJournal = journal)
    (legible : Legible crates options (start.look journal))
    (positive : options.limits.maxJournalBytes ≠ 0)
    (bounded : options.limits.maxJournalBytes < u64Max) :
    (recoverLocked crates root options control).run.Meets
      (recovering crates (start.look journal) host weather) (fun _ _ => True)
      (Tells journal fun _ _ => True) start := by
  unfold recoverLocked
  refine tells_bind (openJournal_meets place) fun found middle opened => ?_
  cases found with
  | none => exact trivial
  | some file =>
      obtain ⟨rfl, seen, shows, rfl, kind⟩ := opened file rfl
      rw [shows] at legible ⊢
      obtain ⟨short, entries, parsed⟩ := legible seen rfl
      have continued : (readJournal crates seen.ino options.limits.maxJournalBytes).run.Meets
          (recovering crates (some seen) host weather) (fun _ _ => True)
          (fun result finish => result = .ok entries ∧ finish = middle) middle := by
        rw [← bind_pure (readJournal crates seen.ino options.limits.maxJournalBytes)]
        exact readJournal_bind shows kind short parsed positive bounded ⟨rfl, rfl⟩
      dsimp only
      unfold orJournal
      rw [Task.meets_except_bind, Task.meets_except_adapt]
      refine continued.mono fun result finish ended => ?_
      obtain ⟨rfl, rfl⟩ := ended
      cases entries with
      | nil =>
          exact tells_of_raises (Task.Raises.bind (Task.raises_adapt fun _ => rfl)
            fun _ => Task.raises_pure _)
      | cons first rest =>
          exact recoverEntries_tells root shows kind short parsed positive bounded

end

end Recovery

/-! ### The engine -/

def activeJournal (host : Host) (control : ControlDir) : Slot :=
  host.slot control.dir legacyJournal

/-- Where the journal is left by an error of a preparation, a commit, an abort or a
recovery without mishaps, the error is flagged. -/
theorem engine_flagged {T : Type} (crates : EditCrates T) (host : Host) (weather : Weather)
    (root : FsRoot) (options : WorktreeOptions) (valid : options.validate = .ok ()) :
    (∀ (plan : EditPlan T) (locked : TransactionLock) start error finish,
        plan.files.length ≤ u32Max →
        (prepareLocked crates root options plan locked).run.Returns
          (preparing host weather (activeJournal host locked.control)).phased start
          (.error error) finish →
        (finish.look (activeJournal host locked.control)).isSome = true →
        error.recoveryRequired = true) ∧
      (∀ (transaction : PreparedTransaction) start error finish,
        (transaction.commit crates.toCrates).run.Returns
          ((fsMachine host weather).without
            (Denied host (activeJournal host transaction.control))) start (.error error) finish →
        (finish.look (activeJournal host transaction.control)).isSome = true →
        error.recoveryRequired = true) ∧
      (∀ (transaction : PreparedTransaction) start error finish,
        (transaction.abort crates.toCrates).run.Returns (fsMachine host weather) start
          (.error error) finish →
        error.recoveryRequired = true) ∧
      ∀ (control : ControlDir) start error finish,
        Recovery.Legible crates.toCrates options (start.look (activeJournal host control)) →
        (Recovery.recoverLocked crates.toCrates root options control).run.Returns
          (Recovery.recovering crates.toCrates (start.look (activeJournal host control)) host
            weather) start (.error error) finish →
        (finish.look (activeJournal host control)).isSome = true →
        error.recoveryRequired = true := by
  obtain ⟨positive, bounded⟩ := WorktreeOptions.validate_journal valid
  refine ⟨?_, ?_, ?_, ?_⟩
  · intro plan locked start error finish countable returned
    exact (prepareLocked_tells root rfl countable positive).returns returned
  · intro transaction start error finish returned
    exact (consume_tells (commitJournaled_tells transaction.journal rfl)).returns returned
  · intro transaction start error finish returned
    have kinds : (transaction.abort crates.toCrates).run.Ends fun result =>
        ∀ error, result = .error error → error.Flagged := by
      unfold PreparedTransaction.abort PreparedTransaction.consume holding
      rw [ExceptT.run_mk, CrashLogic.Task.ends_bind, ExceptT.run_mk, CrashLogic.Task.ends_bind]
      refine (abortJournaled_signals transaction.journal).mono fun result kinds => ?_
      exact fun _ => kinds
    exact (Task.Ends.meets kinds start).returns returned error rfl
  · intro control start error finish legible returned
    exact (Recovery.recoverLocked_tells root rfl legible positive bounded).returns returned

/-! ### A journal that cannot be read -/

section Corrupt

/-- A worktree whose journal of edits holds these bytes. -/
def journalWorld (bytes : Bytes) : World :=
  { World.tree [(⟨0, ".weavatrix"⟩, 1), (⟨1, "worktree"⟩, 2), (⟨2, "lock"⟩, 3),
      (⟨2, legacyJournal⟩, 4)]
      fun ino =>
        if ino ≤ 2 then ⟨.directory, 0, [], 0o755⟩
        else if ino = 4 then ⟨.file, 0, bytes, 0o644⟩
        else ⟨.file, 0, [], 0o644⟩ with
    locks := [3] }

private def swapId : String := "0123456789abcdef0123456789abcdef"

private def swapped : StagedFile :=
  { stableIndex := 0
    originalIndex := 0
    access := ⟨0, "a", "a", 0, ⟨0, 0⟩⟩
    identity := ⟨0, 5⟩
    oldHash := Sha256.digest [120]
    newHash := Sha256.digest [121]
    stageName := artifactName swapId 0 "stage"
    backupName := artifactName swapId 0 "backup"
    change := ⟨"a", Sha256.digest [120], Sha256.digest [121], 1, 1, 1⟩ }

/-- A prepared transaction that changes the byte of one file. -/
def swap : PreparedTransaction :=
  { transactionId := swapId
    operation := "swap"
    preview := ⟨"swap", [swapped.change]⟩
    files := [swapped]
    options := plainOptions
    journal := ⟨4, 1, 0, plainOptions.limits.maxJournalBytes, false⟩
    control := ⟨2, 0⟩
    lock := 3 }

def swapWorld : World :=
  { World.tree [(⟨0, ".weavatrix"⟩, 1), (⟨1, "worktree"⟩, 2), (⟨2, "lock"⟩, 3),
      (⟨2, legacyJournal⟩, 4), (⟨0, "a"⟩, 5), (⟨0, swapped.stageName⟩, 6),
      (⟨0, swapped.backupName⟩, 7)]
      fun ino =>
        if ino ≤ 2 then ⟨.directory, 0, [], 0o755⟩
        else if ino = 4 then ⟨.file, 0, [], 0o644⟩
        else if ino = 6 then ⟨.file, 0, [121], 0o644⟩
        else ⟨.file, 0, [120], 0o644⟩ with
    locks := [3] }

theorem not_denied_exec (host : Host) (journal : Slot) {ρ : Type} (op : FsOp ρ) (start : World) :
    ¬ Denied host journal op start ((fsKernel host).exec op start).1
      ((fsKernel host).exec op start).2 := by
  cases op with
  | unlock file => exact id
  | refuseAppend => exact id
  | io call =>
      cases call with
      | removeFile dir name =>
          change ¬ Denied host journal (.io (.removeFile dir name)) start
            ((FsCall.removeFile dir name).exec host start).1
            ((FsCall.removeFile dir name).exec host start).2
          cases shows : start.look (host.slot dir name) with
          | none =>
              simp only [FsCall.exec, shows]
              rintro ⟨same, _, left⟩
              rw [← same, shows] at left
              cases left
          | some found =>
              by_cases directory : found.inode.kind = .directory
              · simp only [FsCall.exec, shows, if_pos directory]
                rintro ⟨_, impossible, _⟩
                cases impossible
              · simp only [FsCall.exec, shows, if_neg directory]
                exact id
      | _ => exact id

@[irreducible] private def swapCommit : Action ApplyReport := swap.commit plainEditCrates.toCrates

private def cutCommit : Except WorktreeError ApplyReport × World :=
  runFailing .plain ⟨.other, "Input/output error"⟩ 15 swapCommit.run swapWorld

@[irreducible] private def swapAbort : Action AbortReport := swap.abort plainEditCrates.toCrates

private def stuckAbort : Except WorktreeError AbortReport × World :=
  runFailing .plain ⟨.other, "Input/output error"⟩ 2 swapAbort.run swapWorld

/-- The record that the file was changed cannot be written, and so neither can those of its
restoration: the journal is left, and the error says so. An abort that cannot remove an
artifact leaves it, too, and says so. -/
theorem engine_flagged_swap :
    (∃ error finish, (swap.commit plainEditCrates.toCrates).run.Returns
        ((fsMachine .plain .stormy).without (Denied .plain (activeJournal .plain swap.control)))
        swapWorld (.error error) finish ∧
      (finish.look (activeJournal .plain swap.control)).isSome = true ∧
      error.recoveryRequired = true) ∧
    ∃ error finish, (swap.abort plainEditCrates.toCrates).run.Returns (fsMachine .plain .stormy)
        swapWorld (.error error) finish ∧
      (finish.look (activeJournal .plain swap.control)).isSome = true ∧
      error.recoveryRequired = true := by
  have valid : plainOptions.validate = .ok () := by decide +kernel
  have flagged := engine_flagged plainEditCrates .plain .stormy ⟨0, 0⟩ plainOptions valid
  have other : (⟨.other, "Input/output error"⟩ : IoError).kind ≠ .notFound := by decide
  have ended : cutCommit.1.isOk = false ∧ stuckAbort.1.isOk = false ∧
      (cutCommit.2.table.lookup ⟨2, legacyJournal⟩).isSome = true ∧
      (stuckAbort.2.table.lookup ⟨2, legacyJournal⟩).isSome = true := by
    decide +kernel
  obtain ⟨failing, failing', left, left'⟩ := ended
  have same : swapCommit = swap.commit plainEditCrates.toCrates := by unfold swapCommit; rfl
  have same' : swapAbort = swap.abort plainEditCrates.toCrates := by unfold swapAbort; rfl
  rw [← same, ← same']
  constructor
  · have returned : swapCommit.run.Returns
        ((fsMachine .plain .stormy).without (Denied .plain (activeJournal .plain swap.control)))
        swapWorld cutCommit.1 cutCommit.2 := by
      apply returns_runFailing_of
      · exact fun op start => ⟨step_exec trivial op start, not_denied_exec _ _ op start⟩
      · intro ρ call start
        refine ⟨step_fault trivial other call start, ?_⟩
        cases call <;> first | exact id | exact fun denied => other denied.2.1
    cases failed : cutCommit.1 with
    | ok report =>
        rw [failed] at failing
        cases failing
    | error error =>
        rw [failed] at returned
        have tells := flagged.2.1 swap swapWorld error cutCommit.2
        rw [← same] at tells
        have there : (cutCommit.2.look (activeJournal .plain swap.control)).isSome = true :=
          Option.isSome_map.trans left
        exact ⟨error, cutCommit.2, returned, there, tells returned there⟩
  · have returned : swapAbort.run.Returns (fsMachine .plain .stormy) swapWorld stuckAbort.1
        stuckAbort.2 := returns_runFailing trivial trivial other 2 _ swapWorld
    cases failed : stuckAbort.1 with
    | ok report =>
        rw [failed] at failing'
        cases failing'
    | error error =>
        rw [failed] at returned
        have tells := flagged.2.2.1 swap swapWorld error stuckAbort.2
        rw [← same'] at tells
        exact ⟨error, stuckAbort.2, returned, Option.isSome_map.trans left', tells returned⟩

private def corruptRecovery : Except WorktreeError RecoveryReport × World :=
  (recoverTransaction plainCrates ⟨0, 0⟩ plainOptions).run.run (fsKernel .plain)
    { journalWorld [newline] with locks := [] }

/-- Nothing fails, the journal is one empty line and is left, and the error of the
recovery does not say so. -/
theorem corruptJournal_silent :
    ∃ error finish, (recoverTransaction plainCrates ⟨0, 0⟩ plainOptions).run.Returns
        (fsMachine .plain .calm) { journalWorld [newline] with locks := [] } (.error error)
        finish ∧
      (finish.look ⟨2, legacyJournal⟩).isSome = true ∧ error.recoveryRequired = false := by
  have returned : (recoverTransaction plainCrates ⟨0, 0⟩ plainOptions).run.Returns
      (fsMachine .plain .calm) { journalWorld [newline] with locks := [] } corruptRecovery.1
      corruptRecovery.2 := returns_run trivial _ _
  have ended : (match corruptRecovery.1 with
      | .ok _ => true
      | .error error => error.recoveryRequired) = false ∧
      (corruptRecovery.2.table.lookup ⟨2, legacyJournal⟩).isSome = true := by
    decide +kernel
  obtain ⟨silent, left⟩ := ended
  cases failed : corruptRecovery.1 with
  | ok report =>
      rw [failed] at silent
      cases silent
  | error error =>
      rw [failed] at silent returned
      exact ⟨error, corruptRecovery.2, returned, Option.isSome_map.trans left, silent⟩

end Corrupt

end Edit

end Worktree
