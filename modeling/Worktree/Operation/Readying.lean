import Worktree.Operation.Preparing
import Worktree.Plan.Compiling
/-
What a preparation as a whole leaves.

The state directory is found, there is no journal in it, and the plan is projected
without a change. From the creation of the journal on its records are those of a
preparation; when it ends with a transaction, the journal is ready for any ending.
-/

namespace Worktree

open CrashLogic

section

variable {T : Type} (crates : Crates T) (host : Host) (root : FsRoot) (options : WorktreeOptions)
  (dir : Ino)

/-- The journal in this file, while it holds the records of a preparation or of one
that was given up. -/
def preparingBook (file : Ino) (bounded : options.limits.maxJournalBytes < u64Max) :
    Logbook crates :=
  operationBook crates host options dir file bounded (Preparing file)

/-- What a preparation that is cut or fails may leave. -/
def LeavesPreparing (bounded : options.limits.maxJournalBytes < u64Max) (world : World) : Prop :=
  ∃ file, (preparingBook crates host options dir file bounded).Recorded world

/-- There is no journal yet, and the root leads to where it would be. -/
structure Vacant (outer : Ino) (world : World) : Prop where
  absent : world.look (host.slot dir operationJournal) = none
  first : world.Leads (host.slot root.dir ".weavatrix") outer
  second : world.Leads (host.slot outer "worktree") dir

end

section

variable {T : Type} {crates : Crates T} {host : Host} {weather : Weather} {root : FsRoot}
  {options : WorktreeOptions} {dir outer : Ino} {start here : World}
  {bounded : options.limits.maxJournalBytes < u64Max}

theorem preparing_fills (file : Ino) :
    (preparingBook crates host options dir file bounded).Fills :=
  fun _ => id

theorem LeavesPreparing.congr {finish : World}
    (leaves : LeavesPreparing crates host options dir bounded start)
    (same : finish.look (host.slot dir operationJournal) =
      start.look (host.slot dir operationJournal)) :
    LeavesPreparing crates host options dir bounded finish := by
  obtain ⟨file, recorded⟩ := leaves
  exact ⟨file, recorded.congr same⟩

theorem Vacant.controls (vacant : Vacant host root dir outer here) :
    FsRoot.Controls host root dir here :=
  ⟨outer, vacant.first, vacant.second⟩

theorem Vacant.leaves (vacant : Vacant host root dir outer here) :
    LeavesPreparing crates host options dir bounded here :=
  ⟨0, .inl vacant.absent⟩

/-! ### Before there is a journal -/

theorem vacant_maintains (host : Host) (weather : Weather) (root : FsRoot) (dir outer : Ino) :
    (fsMachine host weather).Maintains (Avoids host (host.slot dir operationJournal))
      (Vacant host root dir outer) := by
  have absent := avoids_maintains host weather (host.slot dir operationJournal)
  have leads := World.leads_maintains host weather
  constructor
  · intro ρ op start answer finish avoids vacant stepped
    exact ⟨absent.step op start answer finish avoids vacant.absent stepped,
      (leads _ _).step op start answer finish trivial vacant.first stepped,
      (leads _ _).step op start answer finish trivial vacant.second stepped⟩
  · intro ρ op start left avoids vacant torn
    exact ⟨absent.torn op start left avoids vacant.absent torn,
      (leads _ _).torn op start left trivial vacant.first torn,
      (leads _ _).torn op start left trivial vacant.second torn⟩

/-- A program before or beside the preparation, as long as what is known of the journal
makes its place safe. -/
theorem planning_meets_safe {α : Type} {program : Action α} {good : α → Prop}
    {allowed : {ρ : Type} → FsOp ρ → Prop} {known safe : World → Prop}
    (maintains : (fsMachine host weather).Maintains allowed known)
    (within : ∀ world, known world → safe world) (knows : known here)
    (yields : Task.Yields (fsMachine host weather) allowed known program good) :
    program.planning.run.Meets (fsMachine host weather).phased
      ((fsMachine host weather).phased.Survives safe)
      (fun result finish => known finish ∧ ∀ value, result = .ok value → good value) here := by
  refine (Task.meets_phase _ _ _ _ _).mpr ?_
  apply Task.Upholds.meets yields maintains knows
  · intro here knows ρ op quiet
    exact ⟨within here knows, fun left torn => absurd torn ((quiet here).1 left)⟩
  · intro ρ op here allows knows
    exact ⟨within here knows, fun left torn =>
      within left (maintains.torn op here left allows knows torn)⟩

/-- A program that creates no journal, before there is one. -/
theorem Vacant.meets {α : Type} {program : Action α} {good : α → Prop}
    (vacant : Vacant host root dir outer here)
    (yields : Task.Yields (fsMachine host weather) (Avoids host (host.slot dir operationJournal))
      (Vacant host root dir outer) program good) :
    program.planning.run.Meets (fsMachine host weather).phased
      ((fsMachine host weather).phased.Survives
        (LeavesPreparing crates host options dir bounded))
      (fun result finish => Vacant host root dir outer finish ∧
        ∀ value, result = .ok value → good value) here :=
  planning_meets_safe (vacant_maintains host weather root dir outer)
    (fun _ vacant => vacant.leaves) vacant yields

theorem lock_apart : host.slot dir "lock" ≠ host.slot dir operationJournal := by
  rw [slot_of_own rfl, slot_of_own rfl]
  have different : "lock" ≠ operationJournal := by decide
  exact fun same => different (congrArg Slot.name same)

/-- The lock that is acquired lies in the directory that is known. -/
theorem acquire_yields {allowed : {ρ : Type} → FsOp ρ → Prop} {known : World → Prop}
    (first : ∀ world, known world → world.Leads (host.slot root.dir ".weavatrix") outer)
    (second : ∀ world, known world → world.Leads (host.slot outer "worktree") dir)
    (locks : allowed (.io (.openFile dir "lock" .create)))
    (tries : ∀ file, allowed (.io (.tryLock file))) :
    Task.Yields (fsMachine host weather) allowed known (acquire root)
      fun locked => locked.control = ⟨dir, root.device⟩ := by
  unfold acquire
  refine Task.Yields.bind (Task.yields_adapt (FsRoot.openControl_finds first second))
    fun found same => ?_
  subst same
  refine Task.Yields.bind (Task.yields_result _ fun _ => id) fun control same => ?_
  cases same
  have opened : Task.Yields (fsMachine host weather) allowed known
      (ControlDir.openLock ⟨dir, root.device⟩) fun _ => True := yields_call locks
  refine Task.Yields.bind (Task.yields_adapt opened) fun file _ => ?_
  have tried : Task.Yields (fsMachine host weather) allowed known (perform (.tryLock file))
      fun _ => True := yields_call (tries file)
  refine Task.Yields.bind (Task.yields_lift tried) fun result _ => ?_
  cases result with
  | error error => exact Task.yields_throw _
  | ok held =>
      cases held with
      | true => exact Task.yields_pure _ rfl
      | false => exact Task.yields_throw _

theorem randomId_yields :
    Task.Yields (fsMachine host weather) (Avoids host (host.slot dir operationJournal))
      (Vacant host root dir outer) randomId fun _ => True := by
  unfold randomId
  exact Task.Yields.bind (Task.yields_adapt (yields_call trivial)) fun _ _ =>
    Task.yields_pure _ trivial

/-! ### The new journal -/

/-- A journal that is created is empty, whether or not the call fails. -/
theorem created_stores {answer : Except IoError Ino} {finish : World}
    (absent : start.look (host.slot dir operationJournal) = none)
    (stepped : (fsMachine host weather).step (.io (.openFile dir operationJournal .createNew)) start
      answer finish) :
    finish.look (host.slot dir operationJournal) = none ∧ (∀ file, answer ≠ .ok file) ∨
      finish.Stores (host.slot dir operationJournal) start.fresh [] ∧
        ∀ file, answer = .ok file → file = start.fresh := by
  have executed : (FsCall.openFile dir operationJournal .createNew).exec host start =
      (.ok start.fresh, start.make (host.slot dir operationJournal)
        ⟨.file, (start.inodes dir).device, [], host.freshMode⟩) := by
    simp only [FsCall.exec, FsCall.execOpen, absent]
    rfl
  have name : (host.slot dir operationJournal).name = operationJournal :=
    host.foldOwn dir operationJournal rfl
  have stores : (start.make (host.slot dir operationJournal)
      ⟨.file, (start.inodes dir).device, [], host.freshMode⟩).Stores
      (host.slot dir operationJournal) start.fresh [] := by
    refine ⟨_, World.look_make_self absent, ⟨rfl, ?_, ?_⟩, rfl, rfl, rfl⟩
    · rw [name]
      decide
    · rw [name]
      decide
  rcases stepped with done | ⟨_, error, rfl, came, _⟩
  · rw [executed] at done
    cases done
    exact .inr ⟨stores, fun file same => by cases same; rfl⟩
  · rcases came with rfl | ⟨rfl, _⟩ | torn
    · exact .inl ⟨absent, fun file same => by cases same⟩
    · rw [executed]
      exact .inr ⟨stores, fun file same => by cases same⟩
    · exact torn.elim

theorem Writer.new_yields (file : Ino) (maxBytes : Nat) :
    Reads host weather (Writer.new file maxBytes) fun writer =>
      writer = ⟨file, .current, 0, 0, maxBytes, false⟩ := by
  unfold Writer.new
  refine Task.Yields.bind (Task.yields_result _ fun _ _ => trivial) fun _ _ => ?_
  refine Task.Yields.bind (Task.yields_adapt (yields_quiet (quiet_metadata file))) fun metadata _ => ?_
  exact yields_check fun _ => Task.yields_pure _ rfl

theorem stored_session {file : Ino}
    (stores : here.Stores (host.slot dir operationJournal) file []) :
    (preparingBook crates host options dir file bounded).Session (fun records => records = [])
      ⟨file, .current, 0, 0, options.limits.maxJournalBytes, false⟩ here :=
  ⟨[], (Underway.nil file).preparing, .inl ⟨⟨stores, rfl, trivial, Nat.zero_le _⟩, rfl⟩⟩

/-- What the creation of the journal leaves. -/
theorem Vacant.createWriter_meets (vacant : Vacant host root dir outer here) :
    (createWriter ⟨dir, root.device⟩ options).planning.run.Meets (fsMachine host weather).phased
      ((fsMachine host weather).phased.Survives (LeavesPreparing crates host options dir bounded))
      (fun result finish => match result with
        | .ok writer => (preparingBook crates host options dir writer.file bounded).Session
            (fun records => records = []) writer finish
        | .error _ => LeavesPreparing crates host options dir bounded finish) here := by
  refine (Task.meets_phase _ _ _ _ _).mpr ?_
  unfold createWriter
  rw [Task.meets_except_bind]
  unfold orElse
  rw [Task.meets_except_adapt]
  refine ⟨⟨vacant.leaves, fun _ => False.elim⟩, fun answer made stepped => ?_⟩
  have came := created_stores vacant.absent stepped
  have leaves : LeavesPreparing crates host options dir bounded made := by
    rcases came with ⟨absent, _⟩ | ⟨stores, _⟩
    · exact ⟨0, .inl absent⟩
    · exact ⟨_, (stored_session stores).recorded⟩
  cases answer with
  | error error => exact leaves
  | ok file =>
      rcases came with ⟨_, none⟩ | ⟨stores, same⟩
      · exact absurd rfl (none file)
      obtain rfl := same file rfl
      have kept : (fsMachine host weather).Admits
          ((fsMachine host weather).Survives (LeavesPreparing crates host options dir bounded)) made :=
        Machine.admits_survives leaves
      rw [Task.meets_done]
      dsimp only [Except.mapError]
      rw [Task.meets_except_bind, Task.meets_except_adapt]
      refine Task.Meets.mono (ControlDir.sync_reads.meets kept) fun result synced told => ?_
      obtain ⟨rfl, _⟩ := told
      cases result with
      | error error => exact leaves
      | ok value =>
          dsimp only [Except.mapError]
          unfold orJournal
          rw [Task.meets_except_adapt]
          refine ((Writer.new_yields _ _).meets kept).mono fun result finish told => ?_
          obtain ⟨rfl, told⟩ := told
          cases result with
          | error error => exact leaves
          | ok writer =>
              obtain rfl := told writer rfl
              exact stored_session stores

/-! ### A transaction that is handed on -/

/-- A path that is present was found in the tree. -/
theorem Projects.shows {plan : WorktreePlan T} {projected : ProjectedPlan T}
    (projects : Projects crates host options root start plan projected) {path : ProjectedPath T}
    (listed : path ∈ projected.paths) {evidence : PresentEvidence}
    (present : path.before.evidence = .present evidence) :
    ∃ seen, start.look (path.access.slot host) = some seen := by
  obtain ⟨transitions, jobs, snapshots, _, _, snapped, assembled⟩ := projects.assembled
  obtain ⟨sources, _, _, _, _, gathered, _, _⟩ := assemble_ok assembled
  obtain ⟨index, found⟩ := List.mem_iff_getElem?.mp listed
  obtain ⟨snapshot, among, assembles⟩ := getElem?_of_forall₂ (gatherOutputs_ok gathered) found
  obtain ⟨job, _, snaps⟩ := getElem?_of_forall₂ snapped among
  have observes := snaps.observes
  rw [← assembles.before, ← assembles.access] at observes
  cases before : path.before with
  | absent =>
      rw [before] at present
      cases present
  | present source other =>
      rw [before] at observes
      obtain ⟨seen, shows, _⟩ := observes
      exact ⟨seen, shows⟩

/-- The transaction that is handed on, and its journal: the header, a record for each
operation, the intent and the artifacts of each path, and the end of the preparation. -/
structure Handed (crates : Crates T) (host : Host) (root : FsRoot) (options : WorktreeOptions)
    (dir : Ino) (plan : WorktreePlan T) (transaction : PreparedWorktreeTransaction)
    (base : List Record) (world : World) : Prop where
  ready : ReadyHere crates host transaction base world
  records : ∃ projected, base = preparedRecords plan transaction.contractHash
      transaction.transactionId projected transaction.paths ∧
    List.Forall₂ (Stands transaction.transactionId) projected.paths transaction.paths
  root : transaction.root = root
  options : transaction.options = options
  dir : transaction.control.dir = dir

section

variable {plan : WorktreePlan T} {transaction : PreparedWorktreeTransaction} {base : List Record}

theorem Handed.completes (handed : Handed crates host root options dir plan transaction base here) :
    base.any Record.completes = true := by
  obtain ⟨projected, rfl, _⟩ := handed.records
  exact preparedRecords_completes _ _ _ _ _

theorem Handed.announces (handed : Handed crates host root options dir plan transaction base here) :
    base.countP Record.announces = transaction.paths.length := by
  obtain ⟨projected, rfl, stands⟩ := handed.records
  rw [preparedRecords_announces]
  exact stands.length_eq

theorem Handed.staged (handed : Handed crates host root options dir plan transaction base here) :
    ∀ path ∈ transaction.paths, Logbook.Staged path := by
  obtain ⟨projected, _, stands⟩ := handed.records
  intro path among evidence shown
  obtain ⟨item, _, stood⟩ := Compiler.forall₂_mem_right stands among
  have put : Put item.after path.after := stood.after
  cases made : item.after with
  | absent =>
      rw [made, shown] at put
      cases put
  | present output =>
      refine ⟨artifactName transaction.transactionId item.stableIndex "stage", ?_⟩
      rw [stood.stageName, stageJob, made]

theorem Handed.prepared (handed : Handed crates host root options dir plan transaction base here)
    (countable : Undo.Countable transaction) : PreparedHere crates host transaction base here where
  bounded := handed.ready.bounded
  journal :=
    { stores := handed.ready.journal.stores
      knows := handed.ready.journal.knows
      ordered := handed.ready.journal.ordered
      fits := handed.ready.journal.fits }
  begun := handed.ready.begun
  apart path among :=
    { present := (handed.ready.apart path among).present
      staged := (handed.ready.apart path among).staged }
  staged := handed.staged
  countable := countable

theorem Handed.leaves (handed : Handed crates host root options dir plan transaction base here) :
    LeavesPreparing crates host options dir bounded here := by
  have ready := handed.ready
  have limit := ready.limit
  rw [handed.options] at limit
  obtain ⟨torn, unfinished, fits, stores⟩ := ready.journal.logged.stores
  have current : (transaction.reserve crates host base ready.bounded).schema = .current :=
    ready.prepares.current
  rw [current] at fits stores
  have slot : (transaction.reserve crates host base ready.bounded).slot =
      host.slot dir operationJournal := by
    rw [← handed.dir]
    rfl
  rw [slot] at stores
  have underway : Underway transaction.journal.file base :=
    ⟨ready.prepares.prepares, ready.prepares.foreign⟩
  refine ⟨transaction.journal.file, .inr ⟨base, underway.preparing, ⟨torn, unfinished, ?_, stores⟩,
    ready.journal.ordered⟩⟩
  exact fits.trans (Nat.le_of_eq limit.symm)

end

theorem Complete.handed {plan : WorktreePlan T} {hash : Sha256Hash} {id : String}
    {projected : ProjectedPlan T} {found : String × List OperationChange × List StagedPath}
    {records : List Record} {file lock : Ino} {writer : Writer} {finish : World}
    (complete : Complete file plan hash id projected found records)
    (projects : Projects crates host options root start plan projected)
    (vacant : Vacant host root dir outer start)
    (inStep : (preparingBook crates host options dir file bounded).InStep records writer finish)
    (controls : FsRoot.Controls host root dir finish) :
    Handed crates host root options dir plan
      { transactionId := id
        contractHash := hash
        operation := found.1
        preview := preview projected
        operations := found.2.1
        paths := found.2.2
        options
        root
        journal := writer
        control := ⟨dir, root.device⟩
        lock } records finish := by
  have knows := inStep.knows
  subst knows
  have headed := complete.headed
  refine ⟨⟨bounded, ⟨inStep.stores, rfl, inStep.ordered, inStep.fits⟩, headed.headed,
    ⟨rfl, headed.prepares, headed.foreign⟩, fun staged among => ⟨?_, ?_⟩, ?_, rfl, controls⟩,
    ⟨projected, complete.records, ?_⟩, rfl, rfl, rfl⟩
  · intro evidence present here
    obtain ⟨index, found⟩ := List.mem_iff_getElem?.mp among
    obtain ⟨path, listed, stages⟩ := getElem?_of_forall₂ complete.stages found
    rw [stages.stands.before] at present
    obtain ⟨seen, shows⟩ := projects.shows (List.mem_of_getElem? listed) present
    rw [← stages.stands.access, show staged.access.slot host = host.slot dir operationJournal from
      here, vacant.absent] at shows
    cases shows
  · obtain ⟨index, found⟩ := List.mem_iff_getElem?.mp among
    obtain ⟨path, _, stages⟩ := getElem?_of_forall₂ complete.stages found
    exact stages.foreign
  · intro index staged listed
    obtain ⟨path, among, stages⟩ := getElem?_of_forall₂ complete.stages listed
    rw [stages.stands.index]
    exact projects.numbered among
  · exact complete.stages.imp fun _ _ stages => stages.stands

/-- What the part with the journal open leaves. -/
theorem prepareJournaled_meets (panics : Nat → Option (Nat × Payload)) (plan : WorktreePlan T)
    (hash : Sha256Hash) (control : ControlDir) (projected : ProjectedPlan T) (id : String)
    {writer : Writer}
    (session : (preparingBook crates host options dir writer.file bounded).Session
      (fun records => records = []) writer here) :
    ((prepareJournaled crates panics plan hash root control projected id options).run.run
      writer).Meets (fsMachine host weather).phased
      ((fsMachine host weather).phased.Survives (LeavesPreparing crates host options dir bounded))
      (fun result finish => match result with
        | (.ok found, after) => ∃ records,
            Complete writer.file plan hash id projected found records ∧
            (preparingBook crates host options dir writer.file bounded).InStep records after finish
        | (.error _, _) => LeavesPreparing crates host options dir bounded finish) here := by
  have opens : ((prepareJournaled crates panics plan hash root control projected id options).run.run
      writer).Meets (fsMachine host weather).phased
      ((preparingBook crates host options dir writer.file bounded).Outlasts host weather) _ here :=
    Logbook.prepareJournaled_opens (preparing_fills _) panics plan hash root control projected id
      writer here session
  have unspoiled : ((prepareJournaled crates panics plan hash root control projected id
      options).run.run writer).Meets (fsMachine host weather).phased (fun _ _ => True) _ here :=
    (prepareJournaled_unspoiled options panics plan hash root control projected id writer).meets
      here
  refine ((opens.and unspoiled).guard_mono ?_).mono fun result finish ended => ?_
  · rintro κ op world ⟨recorded, torn⟩
    exact ⟨⟨_, recorded⟩, fun left came => ⟨_, torn left came⟩⟩
  · obtain ⟨ended, clean⟩ := ended
    obtain ⟨error | found, after⟩ := result
    · exact ⟨_, ended⟩
    · obtain ⟨records, safe, ⟨inStep, complete⟩ | ⟨poisoned, _⟩⟩ := ended
      · exact ⟨records, complete, inStep⟩
      · rw [clean found rfl] at poisoned
        cases poisoned

/-- The root leads to the state directory all the time. -/
theorem controlled {α : Type} {program : Task (Phase FsOp) α}
    {guard : {κ : Type} → Phase FsOp κ → World → Prop} {post : α → World → Prop}
    (meets : program.Meets (fsMachine host weather).phased guard post here)
    (controls : FsRoot.Controls host root dir here) :
    program.Meets (fsMachine host weather).phased guard
      (fun result finish => post result finish ∧ FsRoot.Controls host root dir finish) here := by
  have leads : (fsMachine host weather).Maintains (fun _ => True) (FsRoot.Controls host root dir) :=
    FsRoot.controls_maintains root dir
  have kept := Task.maintains_meets leads.phased program controls
  exact meets.and (kept.guard_mono fun _ _ _ => trivial)

/-! ### The whole preparation -/

/-- What a preparation ends with. -/
def PreparationEnds (crates : Crates T) (host : Host) (root : FsRoot) (options : WorktreeOptions)
    (dir : Ino) (plan : WorktreePlan T) (bounded : options.limits.maxJournalBytes < u64Max) :
    Except WorktreeError PreparedWorktreeTransaction → World → Prop
  | .ok transaction, world =>
      ∃ base, Handed crates host root options dir plan transaction base world
  | .error _, world => LeavesPreparing crates host options dir bounded world

theorem Vacant.prepareLocked_meets (vacant : Vacant host root dir outer here)
    (panics : Nat → Option (Nat × Payload)) (plan : WorktreePlan T) (fingerprint : Sha256Hash)
    (lock : Ino) :
    (prepareLocked crates panics root options plan fingerprint
      ⟨⟨dir, root.device⟩, lock⟩).run.Meets (fsMachine host weather).phased
      ((fsMachine host weather).phased.Survives (LeavesPreparing crates host options dir bounded))
      (PreparationEnds crates host root options dir plan bounded) here := by
  unfold prepareLocked
  rw [Task.meets_except_bind]
  refine (vacant.meets Undo.ensureNoPending_reads.yields).mono fun result middle ended => ?_
  obtain ⟨vacant, _⟩ := ended
  cases result with
  | error error => exact vacant.leaves
  | ok value =>
      dsimp only
      rw [Task.meets_except_bind]
      have survives : ∀ {κ : Type} (op : Phase FsOp κ),
          (∀ left, (fsMachine host weather).phased.torn op middle left → left = middle) →
          (fsMachine host weather).phased.Survives
            (LeavesPreparing crates host options dir bounded) op middle := by
        intro κ op torn
        refine ⟨vacant.leaves, fun left came => ?_⟩
        rw [torn left came]
        exact vacant.leaves
      refine (project_guarded plan (fun transitions => (openJobs_reads 0 transitions).yields)
        survives).mono fun result here told => ?_
      obtain ⟨rfl, told⟩ := told
      cases result with
      | error error => exact vacant.leaves
      | ok projected =>
          have projects : Projects crates host options root here plan projected :=
            ⟨told projected rfl⟩
          dsimp only
          rw [Task.meets_except_bind]
          refine (vacant.meets randomId_yields).mono fun result drawn ended => ?_
          obtain ⟨still, _⟩ := ended
          cases result with
          | error error => exact still.leaves
          | ok id =>
              dsimp only
              rw [Task.meets_except_bind]
              refine (controlled still.createWriter_meets still.controls).mono
                fun result made ended => ?_
              obtain ⟨ended, controls⟩ := ended
              cases result with
              | error error => exact ended
              | ok writer =>
                  dsimp only
                  rw [Task.meets_except_bind, Task.meets_except_lift]
                  refine (controlled (prepareJournaled_meets panics plan fingerprint _ projected id
                    ended) controls).mono fun result finish ended => ?_
                  obtain ⟨ended, controls⟩ := ended
                  obtain ⟨error | found, after⟩ := result
                  · exact ended
                  · obtain ⟨records, complete, inStep⟩ := ended
                    exact ⟨records, complete.handed projects vacant inStep controls⟩

theorem prepareOperationPlan_meets (controls : FsRoot.Controls host root dir start)
    (absent : start.look (host.slot dir operationJournal) = none)
    (panics : Nat → Option (Nat × Payload)) (plan : WorktreePlan T) :
    (prepareOperationPlan crates panics root options plan).run.Meets (fsMachine host weather).phased
      ((fsMachine host weather).phased.Survives (LeavesPreparing crates host options dir bounded))
      (PreparationEnds crates host root options dir plan bounded) start := by
  obtain ⟨outer, first, second⟩ := controls
  have vacant : Vacant host root dir outer start := ⟨absent, first, second⟩
  unfold prepareOperationPlan
  rw [Task.meets_except_bind]
  cases validateContract crates plan options with
  | error error => exact vacant.leaves
  | ok fingerprint =>
      rw [ExceptT.run_mk, Task.meets_pure]
      dsimp only
      rw [Task.meets_except_bind]
      refine (vacant.meets (acquire_yields (fun _ vacant => vacant.first)
        (fun _ vacant => vacant.second) lock_apart fun _ => trivial)).mono fun result here ended => ?_
      obtain ⟨vacant, same⟩ := ended
      cases result with
      | error error => exact vacant.leaves
      | ok locked =>
          obtain ⟨control, lock⟩ := locked
          obtain rfl := same _ rfl
          dsimp only
          rw [Task.meets_except_bind, Task.meets_except_lift]
          refine (vacant.prepareLocked_meets panics plan fingerprint lock).mono
            fun result finish ended => ?_
          cases result with
          | ok transaction => exact ended
          | error error =>
              change LeavesPreparing crates host options dir bounded finish at ended
              dsimp only
              rw [Task.meets_except_bind, Task.meets_except_lift]
              refine ⟨⟨ended, fun _ => False.elim⟩, fun answer released stepped => ?_⟩
              cases stepped
              exact ended.congr rfl

/-- Whatever fails in a preparation and wherever it is cut, there is no journal or one of
its own records; a transaction that is handed on is ready for any ending. -/
theorem prepareOperationPlan_readies (bounded : options.limits.maxJournalBytes < u64Max)
    (controls : FsRoot.Controls host root dir start)
    (absent : start.look (host.slot dir operationJournal) = none)
    (panics : Nat → Option (Nat × Payload)) (plan : WorktreePlan T) :
    (∀ transaction finish, (prepareOperationPlan crates panics root options plan).run.Returns
        (fsMachine host weather).phased start (.ok transaction) finish →
      ∃ base, Handed crates host root options dir plan transaction base finish) ∧
    (∀ error finish, (prepareOperationPlan crates panics root options plan).run.Returns
        (fsMachine host weather).phased start (.error error) finish →
      LeavesPreparing crates host options dir bounded finish) ∧
    ∀ left, (prepareOperationPlan crates panics root options plan).run.Crashes
        (fsMachine host weather).phased start left →
      LeavesPreparing crates host options dir bounded left.reboot := by
  have meets : (prepareOperationPlan crates panics root options plan).run.Meets
      (fsMachine host weather).phased ((fsMachine host weather).phased.Survives
        (LeavesPreparing crates host options dir bounded))
      (PreparationEnds crates host root options dir plan bounded) start :=
    prepareOperationPlan_meets controls absent panics plan
  refine ⟨fun transaction finish returned => meets.returns returned,
    fun error finish returned => meets.returns returned, fun left crashed => ?_⟩
  have leaves : LeavesPreparing crates host options dir bounded left := by
    apply meets.crashes _ crashed
    intro result finish ended
    cases result with
    | error error => exact ended
    | ok transaction =>
        obtain ⟨base, handed⟩ := ended
        exact handed.leaves
  exact leaves.congr rfl

/-- In a run without mishaps the error of a commit of what is handed on asks for a recovery
exactly when the journal is still there, with or without retained evidence. -/
theorem prepareOperationPlan_tells (bounded : options.limits.maxJournalBytes < u64Max)
    (controls : FsRoot.Controls host root dir start)
    (absent : start.look (host.slot dir operationJournal) = none)
    (panics : Nat → Option (Nat × Payload)) (plan : WorktreePlan T) (weather' : Weather) :
    ∀ transaction middle, (prepareOperationPlan crates panics root options plan).run.Returns
        (fsMachine host weather).phased start (.ok transaction) middle →
      Undo.Countable transaction →
      ∃ limit : transaction.journal.maxBytes < u64Max,
        (∀ result finish, (transaction.commit crates).run.Returns
            ((transaction.logbook crates host limit).careful host weather') middle result finish →
          ∀ error, result = .error error →
            (transaction.logbook crates host limit).Truthful error finish) ∧
        (Undo.Sound crates host transaction.control options middle →
          ∀ retention result finish, (transaction.commitRetained crates retention).run.Returns
              ((transaction.logbook crates host limit).careful host weather') middle result
              finish →
            ∀ error, result = .error error →
              (transaction.logbook crates host limit).Truthful error finish) := by
  intro transaction middle returned countable
  have ends : PreparationEnds crates host root options dir plan bounded (.ok transaction) middle :=
    (prepareOperationPlan_meets controls absent panics plan).returns returned
  obtain ⟨base, handed⟩ := ends
  have prepared := handed.prepared countable
  refine ⟨prepared.bounded, fun result finish ran => ?_,
    fun sound retention result finish ran => ?_⟩
  · exact (commit_tells prepared.steady prepared.session).returns ran
  · rw [← handed.options] at sound
    exact (commitRetained_tells retention prepared.steady sound countable prepared.session).returns
      ran

/-! ### A journal that is pending -/

/-- The journal is there, and the root leads to it. -/
structure Occupied (host : Host) (root : FsRoot) (dir outer : Ino) (seen : Seen) (world : World) :
    Prop where
  shows : world.look (host.slot dir operationJournal) = some seen
  first : world.Leads (host.slot root.dir ".weavatrix") outer
  second : world.Leads (host.slot outer "worktree") dir

variable {seen : Seen}

theorem occupied_maintains (host : Host) (weather : Weather) (root : FsRoot) (dir outer : Ino)
    (single : seen.links = 1) :
    (fsMachine host weather).Maintains (Spares host (host.slot dir operationJournal) seen.ino)
      (Occupied host root dir outer seen) := by
  have shows := spares_maintains host weather (host.slot dir operationJournal) seen single
  have leads := World.leads_maintains host weather
  constructor
  · intro ρ op start answer finish spares occupied stepped
    exact ⟨shows.step op start answer finish spares occupied.shows stepped,
      (leads _ _).step op start answer finish trivial occupied.first stepped,
      (leads _ _).step op start answer finish trivial occupied.second stepped⟩
  · intro ρ op start left spares occupied torn
    exact ⟨shows.torn op start left spares occupied.shows torn,
      (leads _ _).torn op start left trivial occupied.first torn,
      (leads _ _).torn op start left trivial occupied.second torn⟩

theorem Occupied.meets {α : Type} {program : Action α} {good : α → Prop}
    (occupied : Occupied host root dir outer seen here) (single : seen.links = 1)
    (yields : Task.Yields (fsMachine host weather)
      (Spares host (host.slot dir operationJournal) seen.ino) (Occupied host root dir outer seen)
      program good) :
    program.planning.run.Meets (fsMachine host weather).phased
      ((fsMachine host weather).phased.Survives (Occupied host root dir outer seen))
      (fun result finish => Occupied host root dir outer seen finish ∧
        ∀ value, result = .ok value → good value) here :=
  planning_meets_safe (occupied_maintains host weather root dir outer single) (fun _ => id) occupied
    yields

theorem ensureNoPending_yields (kind : seen.inode.kind = .file) :
    Task.Yields (fsMachine host weather) (Spares host (host.slot dir operationJournal) seen.ino)
      (Occupied host root dir outer seen) (ensureNoPending ⟨dir, root.device⟩) fun _ => False := by
  have found : Task.Yields (fsMachine host weather)
      (Spares host (host.slot dir operationJournal) seen.ino) (Occupied host root dir outer seen)
      (ControlDir.openOperationJournal ⟨dir, root.device⟩) fun found => found = some seen.ino :=
    ControlDir.openOperationJournal_finds fun world occupied =>
      ⟨seen, occupied.shows, rfl, kind⟩
  unfold ensureNoPending
  refine Task.Yields.bind (Task.yields_adapt
    (Reads.yields (ControlDir.openNamedJournal_reads _))) fun _ _ => ?_
  refine yields_check fun _ => ?_
  refine Task.Yields.bind (Task.yields_adapt found) fun _ same => ?_
  subst same
  refine yields_check fun none => ?_
  exact absurd rfl none

/-- While a journal is pending no preparation is handed on, and it stays as it is. -/
theorem Occupied.refuses (occupied : Occupied host root dir outer seen start)
    (single : seen.links = 1) (kind : seen.inode.kind = .file)
    (panics : Nat → Option (Nat × Payload)) (plan : WorktreePlan T) :
    (prepareOperationPlan crates panics root options plan).run.Meets (fsMachine host weather).phased
      ((fsMachine host weather).phased.Survives (Occupied host root dir outer seen))
      (fun result finish => Occupied host root dir outer seen finish ∧
        ∀ transaction, result ≠ .ok transaction) start := by
  unfold prepareOperationPlan
  rw [Task.meets_except_bind]
  cases validateContract crates plan options with
  | error error => exact ⟨occupied, nofun⟩
  | ok fingerprint =>
      rw [ExceptT.run_mk, Task.meets_pure]
      dsimp only
      rw [Task.meets_except_bind]
      refine (occupied.meets single (acquire_yields (fun _ occupied => occupied.first)
        (fun _ occupied => occupied.second) trivial fun _ => trivial)).mono
        fun result here ended => ?_
      obtain ⟨occupied, same⟩ := ended
      cases result with
      | error error => exact ⟨occupied, nofun⟩
      | ok locked =>
          obtain ⟨control, lock⟩ := locked
          obtain rfl := same _ rfl
          dsimp only
          rw [Task.meets_except_bind, Task.meets_except_lift]
          unfold prepareLocked
          rw [Task.meets_except_bind]
          refine (occupied.meets single (ensureNoPending_yields kind)).mono
            fun result finish ended => ?_
          obtain ⟨occupied, never⟩ := ended
          cases result with
          | ok value => exact (never value rfl).elim
          | error error =>
              dsimp only
              rw [Task.meets_except_bind, Task.meets_except_lift]
              refine ⟨⟨occupied, fun _ => False.elim⟩, fun answer released stepped => ?_⟩
              cases stepped
              exact ⟨⟨occupied.shows, occupied.first, occupied.second⟩, nofun⟩

end

/-! ### One file created -/

section Bare

theorem bare_controls : FsRoot.Controls .plain ⟨0, 0⟩ 2 bareWorld :=
  ⟨1, ⟨rfl, rfl⟩, ⟨rfl, rfl⟩⟩

theorem prepareOperationPlan_readies_creation :
    (∀ transaction finish, (prepareOperationPlan plainCrates firstCall ⟨0, 0⟩ plainOptions
        createPlan).run.Returns (fsMachine .plain .stormy).phased bareWorld (.ok transaction)
        finish →
      ∃ base, Handed plainCrates .plain ⟨0, 0⟩ plainOptions 2 createPlan transaction base finish) ∧
    (∀ error finish, (prepareOperationPlan plainCrates firstCall ⟨0, 0⟩ plainOptions
        createPlan).run.Returns (fsMachine .plain .stormy).phased bareWorld (.error error) finish →
      LeavesPreparing plainCrates .plain plainOptions 2 (by decide) finish) ∧
    ∀ left, (prepareOperationPlan plainCrates firstCall ⟨0, 0⟩ plainOptions
        createPlan).run.Crashes (fsMachine .plain .stormy).phased bareWorld left →
      LeavesPreparing plainCrates .plain plainOptions 2 (by decide) left.reboot :=
  prepareOperationPlan_readies (by decide) bare_controls rfl firstCall createPlan

@[irreducible] private def readyPrepare : Planning PreparedWorktreeTransaction :=
  prepareOperationPlan plainCrates (fun _ => none) ⟨0, 0⟩ plainOptions createPlan

private def readyEnd : Except WorktreeError PreparedWorktreeTransaction × World :=
  readyPrepare.run.phasedRun (fsKernel .plain) bareWorld

/-- The plan that creates a file is prepared, and what its commit says is true. -/
theorem prepareOperationPlan_tells_creation :
    ∃ transaction middle, (prepareOperationPlan plainCrates (fun _ => none) ⟨0, 0⟩ plainOptions
        createPlan).run.Returns (fsMachine .plain .calm).phased bareWorld (.ok transaction) middle ∧
      ∃ limit : transaction.journal.maxBytes < u64Max,
        (∀ result finish, (transaction.commit plainCrates).run.Returns
            ((transaction.logbook plainCrates .plain limit).careful .plain .stormy) middle result
            finish →
          ∀ error, result = .error error →
            (transaction.logbook plainCrates .plain limit).Truthful error finish) ∧
        (Undo.Sound plainCrates .plain transaction.control plainOptions middle →
          ∀ retention result finish, (transaction.commitRetained plainCrates retention).run.Returns
              ((transaction.logbook plainCrates .plain limit).careful .plain .stormy) middle result
              finish →
            ∀ error, result = .error error →
              (transaction.logbook plainCrates .plain limit).Truthful error finish) := by
  have same : readyPrepare = prepareOperationPlan plainCrates (fun _ => none) ⟨0, 0⟩ plainOptions
      createPlan := by
    unfold readyPrepare
    rfl
  have computed : readyPrepare.run.manned (fsKernel .plain) bareWorld = true ∧
      (readyEnd.1.toOption.any fun transaction =>
        (Undo.totalBytes (((transaction.paths.map Undo.receiptPath).filterMap
          ReceiptPath.backup).map PresentEvidence.bytes)).isSome) = true := by
    decide +kernel
  obtain ⟨some_worker, countable⟩ := computed
  have returned : readyPrepare.run.Returns (fsMachine .plain .calm).phased bareWorld readyEnd.1
      readyEnd.2 :=
    Task.returns_phasedRun (step_exec trivial) readyPrepare.run bareWorld some_worker
  have bounded : plainOptions.limits.maxJournalBytes < u64Max := by decide
  rw [same] at returned
  cases prepared : readyEnd.1 with
  | error error =>
      rw [prepared] at countable
      cases countable
  | ok transaction =>
      rw [prepared] at returned countable
      exact ⟨transaction, readyEnd.2, returned, prepareOperationPlan_tells bounded bare_controls rfl
        (fun _ => none) createPlan .stormy transaction readyEnd.2 returned
        (Option.isSome_iff_exists.mp countable)⟩

end Bare

end Worktree
