import Worktree.Operation.Readying
/-
The operation journal over the whole life of its directory.

Plans are prepared, transactions are ended and journals are recovered, one after the
other, each of them ended or cut at any point. Whatever fails, a journal that is left
can be recovered, and stays so.
-/

namespace Worktree

open CrashLogic

section

variable {T : Type} (crates : Crates T) (host : Host) (weather : Weather) (root : FsRoot)
  (options : WorktreeOptions) (dir : Ino) (bounded : options.limits.maxJournalBytes < u64Max)

/-- The journal is this file and holds these records; it is none of the staged files. -/
structure Filed (file : Ino) (records : List Record) (world : World) : Prop where
  logged : (operationBook crates host options dir file bounded fun _ => True).Logged records world
  foreign : Foreign file records

/-- There is no journal, or it is in order and was restored from above. -/
def Orderly (world : World) : Prop :=
  world.look (host.slot dir operationJournal) = none ∨
    ∃ file records, Filed crates host options dir bounded file records world ∧
      InOrder records ∧ Descends (aftermath records)

/-- What the endings may leave that is not in order or not restored from above: the path
that failed was announced, and is left out of the restoration; or nothing was announced. -/
def Irregular (records : List Record) : Prop :=
  Skips ((preparation records).countP Record.announces) (aftermath records) ∨
    aftermath records = [.finished .rolledBack]

def Regular (world : World) : Prop :=
  ∀ file records, Filed crates host options dir bounded file records world → ¬ Irregular records

/-- One thing after the other is done with the journal, to its end or not; others may
change what they like but the journal and the directories to it. -/
inductive Life (start : World) : World → Prop
  | begins : Life start start
  | prepared {world : World} (earlier : Life start world) (panics : Nat → Option (Nat × Payload))
      (plan : WorktreePlan T) (result : Except WorktreeError PreparedWorktreeTransaction)
      (finish : World)
      (returned : (prepareOperationPlan crates panics root options plan).run.Returns
        (fsMachine host weather).phased world result finish) : Life start finish
  | prepareCut {world : World} (earlier : Life start world)
      (panics : Nat → Option (Nat × Payload)) (plan : WorktreePlan T) (left : World)
      (crashed : (prepareOperationPlan crates panics root options plan).run.Crashes
        (fsMachine host weather).phased world left) : Life start left.reboot
  | ended {world : World} (earlier : Life start world) (panics : Nat → Option (Nat × Payload))
      (plan : WorktreePlan T) (transaction : PreparedWorktreeTransaction) (ready here : World)
      (returned : (prepareOperationPlan crates panics root options plan).run.Returns
        (fsMachine host weather).phased world (.ok transaction) ready)
      (same : here.look (host.slot dir operationJournal) =
        ready.look (host.slot dir operationJournal))
      (controls : FsRoot.Controls host root dir here) (ending : Ending) (finish : World)
      (done : (ending.run crates transaction).Returns (fsMachine host weather) here () finish)
      (regular : Regular crates host options dir bounded finish) : Life start finish
  | endingCut {world : World} (earlier : Life start world)
      (panics : Nat → Option (Nat × Payload)) (plan : WorktreePlan T)
      (transaction : PreparedWorktreeTransaction) (ready here : World)
      (returned : (prepareOperationPlan crates panics root options plan).run.Returns
        (fsMachine host weather).phased world (.ok transaction) ready)
      (same : here.look (host.slot dir operationJournal) =
        ready.look (host.slot dir operationJournal))
      (controls : FsRoot.Controls host root dir here) (ending : Ending) (left : World)
      (crashed : (ending.run crates transaction).Crashes (fsMachine host weather) here left)
      (regular : Regular crates host options dir bounded left) : Life start left.reboot
  | recovered {world : World} (earlier : Life start world)
      (there : (world.look (host.slot dir operationJournal)).isSome = true)
      (result : Except WorktreeError (Option RecoveryReport)) (finish : World)
      (returned : (recoverOperationTransaction crates root options).run.Returns
        (fsMachine host weather) world result finish) : Life start finish
  | recoveryCut {world : World} (earlier : Life start world)
      (there : (world.look (host.slot dir operationJournal)).isSome = true) (left : World)
      (crashed : (recoverOperationTransaction crates root options).run.Crashes
        (fsMachine host weather) world left) : Life start left.reboot
  | others {world : World} (earlier : Life start world) (finish : World)
      (same : finish.look (host.slot dir operationJournal) =
        world.look (host.slot dir operationJournal))
      (controls : FsRoot.Controls host root dir finish) : Life start finish

/-- While a journal is pending a preparation hands on no transaction, and ended or cut it
leaves the journal as it is. -/
def Bars (world : World) : Prop :=
  (world.look (host.slot dir operationJournal)).isSome = true →
    ∀ (panics : Nat → Option (Nat × Payload)) (plan : WorktreePlan T),
      (∀ result finish, (prepareOperationPlan crates panics root options plan).run.Returns
          (fsMachine host weather).phased world result finish →
        (∀ transaction, result ≠ .ok transaction) ∧
          finish.look (host.slot dir operationJournal) =
            world.look (host.slot dir operationJournal)) ∧
      ∀ left, (prepareOperationPlan crates panics root options plan).run.Crashes
          (fsMachine host weather).phased world left →
        left.look (host.slot dir operationJournal) = world.look (host.slot dir operationJournal)

end

section

variable {T : Type} {crates : Crates T} {host : Host} {weather : Weather} {root : FsRoot}
  {options : WorktreeOptions} {dir file : Ino} {start here world finish left : World}
  {bounded : options.limits.maxJournalBytes < u64Max} {records base tail : List Record}

theorem Orderly.congr (orderly : Orderly crates host options dir bounded world)
    (same : finish.look (host.slot dir operationJournal) =
      world.look (host.slot dir operationJournal)) :
    Orderly crates host options dir bounded finish := by
  rcases orderly with gone | ⟨file, records, holds, ordered⟩
  · exact .inl (same.trans gone)
  · exact .inr ⟨file, records, ⟨holds.logged.congr same, holds.foreign⟩, ordered⟩

/-! ### Preparations -/

/-- The records of a preparation with others after them that follow their course. -/
theorem course_inOrder (prepares : ∀ record ∈ base, record.prepares = true)
    (course : Course (base.any Record.completes) (base.countP Record.announces) tail) :
    InOrder (base ++ tail) ∧ preparation (base ++ tail) = base ∧
      aftermath (base ++ tail) = tail := by
  obtain ⟨before, after⟩ := preparation_append prepares fun record among => course.later among
  refine ⟨?_, before, after⟩
  unfold InOrder
  rw [before, after]
  exact course

/-- A preparation that was cut or given up is in order. -/
theorem Preparing.orderly (preparing : Preparing file records) :
    InOrder records ∧ Descends (aftermath records) ∧ Foreign file records := by
  obtain ⟨base, underway, rfl | ⟨_, rfl⟩⟩ := preparing
  · obtain ⟨order, _, after⟩ := course_inOrder underway.prepares .nil
    rw [List.append_nil] at order after
    refine ⟨order, ?_, underway.foreign⟩
    rw [after]
    exact fun _ _ _ announced => absurd announced List.not_mem_nil
  · have aborted : Course (base.any Record.completes) (base.countP Record.announces)
        ([] ++ [.finished .aborted]) :=
      Course.nil.snoc ⟨fun _ => List.not_mem_nil, fun _ => List.not_mem_nil⟩
    obtain ⟨order, _, after⟩ := course_inOrder underway.prepares aborted
    refine ⟨order, ?_, fun index identity backup staged => ?_⟩
    · have finished : Descends ([] ++ [.finished .aborted]) := Descends.finish _
      rw [← after] at finished
      exact finished
    · rcases List.mem_append.mp staged with earlier | last
      · exact underway.foreign index identity backup earlier
      · cases List.mem_singleton.mp last

theorem LeavesPreparing.orderly
    (leaves : LeavesPreparing crates host options dir bounded world) :
    Orderly crates host options dir bounded world := by
  obtain ⟨file, gone | ⟨records, preparing, logged⟩⟩ := leaves
  · exact .inl gone
  · have preparing : Preparing file records := preparing
    obtain ⟨order, descends, foreign⟩ := preparing.orderly
    exact .inr ⟨file, records, ⟨⟨logged.stores, logged.ordered⟩, foreign⟩, order, descends⟩

/-- What is pending is a file of its own, to which the root leads. -/
theorem Filed.occupied (holds : Filed crates host options dir bounded file records world)
    (controls : FsRoot.Controls host root dir world) :
    ∃ outer seen, Occupied host root dir outer seen world ∧ seen.links = 1 ∧
      seen.inode.kind = .file := by
  obtain ⟨tail, _, _, seen, shows, reserved, _, kind, _⟩ := holds.logged.stores
  obtain ⟨outer, first, second⟩ := controls
  exact ⟨outer, seen, ⟨shows, first, second⟩, reserved.single, kind⟩

theorem Orderly.bars (orderly : Orderly crates host options dir bounded world)
    (controls : FsRoot.Controls host root dir world) :
    Bars crates host weather root options dir world := by
  intro there panics plan
  rcases orderly with absent | ⟨file, records, holds, _⟩
  · rw [absent] at there
    cases there
  obtain ⟨outer, seen, occupied, single, kind⟩ := holds.occupied controls
  have refuses : (prepareOperationPlan crates panics root options plan).run.Meets
      (fsMachine host weather).phased _ _ world := occupied.refuses single kind panics plan
  constructor
  · intro result finish returned
    obtain ⟨still, refused⟩ := refuses.returns returned
    exact ⟨refused, still.shows.trans occupied.shows.symm⟩
  · intro left crashed
    have still := refuses.crashes (fun _ _ ended => ended.1) crashed
    exact still.shows.trans occupied.shows.symm

/-- Whether or not a journal is pending, a preparation leaves one that is in order. -/
theorem prepare_orderly (orderly : Orderly crates host options dir bounded world)
    (controls : FsRoot.Controls host root dir world) (panics : Nat → Option (Nat × Payload))
    (plan : WorktreePlan T) :
    (prepareOperationPlan crates panics root options plan).run.Meets (fsMachine host weather).phased
      ((fsMachine host weather).phased.Survives (Orderly crates host options dir bounded))
      (fun result finish => Orderly crates host options dir bounded finish ∧
        ∀ transaction, result = .ok transaction →
          ∃ base, Handed crates host root options dir plan transaction base finish) world := by
  rcases orderly with absent | ⟨file, records, holds, ordered⟩
  · have meets : (prepareOperationPlan crates panics root options plan).run.Meets
        (fsMachine host weather).phased ((fsMachine host weather).phased.Survives
          (LeavesPreparing crates host options dir bounded))
        (PreparationEnds crates host root options dir plan bounded) world :=
      prepareOperationPlan_meets controls absent panics plan
    refine (meets.guard_mono fun op here survives => ?_).mono fun result finish ended => ?_
    · exact ⟨survives.1.orderly, fun left torn => (survives.2 left torn).orderly⟩
    · cases result with
      | error error => exact ⟨LeavesPreparing.orderly ended, nofun⟩
      | ok transaction =>
          obtain ⟨base, handed⟩ := ended
          refine ⟨handed.leaves.orderly, fun found same => ?_⟩
          cases same
          exact ⟨base, handed⟩
  · obtain ⟨outer, seen, occupied, single, kind⟩ := holds.occupied controls
    have kept : ∀ here, Occupied host root dir outer seen here →
        Orderly crates host options dir bounded here := fun here still =>
      Orderly.congr (.inr ⟨file, records, holds, ordered⟩) (still.shows.trans occupied.shows.symm)
    refine ((occupied.refuses single kind panics plan).guard_mono
      fun op here survives => ?_).mono fun result finish ended => ?_
    · exact ⟨kept here survives.1, fun left torn => kept left (survives.2 left torn)⟩
    · exact ⟨kept finish ended.1, fun transaction same => absurd same (ended.2 transaction)⟩

/-! ### Endings -/

theorem Handed.congr {plan : WorktreePlan T} {transaction : PreparedWorktreeTransaction}
    (handed : Handed crates host root options dir plan transaction base world)
    (same : here.look (host.slot dir operationJournal) =
      world.look (host.slot dir operationJournal))
    (controls : FsRoot.Controls host root dir here) :
    Handed crates host root options dir plan transaction base here := by
  have ready := handed.ready
  have dirs := handed.dir
  have roots := handed.root
  subst dirs roots
  exact { handed with ready := { ready with journal := ready.journal.congr same, controls } }

/-- A regular ending leaves a journal that is in order. -/
theorem Handed.orderly {plan : WorktreePlan T} {transaction : PreparedWorktreeTransaction}
    (handed : Handed crates host root options dir plan transaction base start)
    (recorded : (transaction.closingBook crates host base handed.ready.bounded).Recorded world)
    (regular : Regular crates host options dir bounded world) :
    Orderly crates host options dir bounded world := by
  have dirs := handed.dir
  have chosen := handed.options
  subst dirs chosen
  rcases handed.ready.closed recorded with gone | ⟨tail, closed⟩
  · exact .inl gone
  have holds : Filed crates host transaction.options transaction.control.dir bounded
      transaction.journal.file (base ++ tail) world := ⟨closed.logged, closed.foreign⟩
  have usual := regular _ _ holds
  unfold Irregular at usual
  rw [closed.before, closed.after, handed.announces, not_or] at usual
  rcases closed.ends with ⟨course, descends | skips⟩ | same
  · refine .inr ⟨_, _, holds, ?_, ?_⟩
    · unfold InOrder
      rw [closed.before, closed.after, handed.completes, handed.announces]
      exact course
    · rw [closed.after]
      exact descends
  · exact absurd skips usual.1
  · exact absurd same usual.2

/-! ### Recoveries -/

/-- A run with a journal whose safe records are in order. -/
theorem orderly_of_book {α : Type} {program : Task FsOp α} {safe : List Record → Prop}
    (ordered : ∀ records, safe records →
      InOrder records ∧ Descends (aftermath records) ∧ Foreign file records)
    (meets : program.Meets (fsMachine host weather)
      ((operationBook crates host options dir file bounded safe).Cautious host weather True)
      (fun _ finish => (operationBook crates host options dir file bounded safe).Recorded finish)
      world) :
    program.Meets (fsMachine host weather)
      ((fsMachine host weather).Survives (Orderly crates host options dir bounded))
      (fun _ finish => Orderly crates host options dir bounded finish) world := by
  have orderly : ∀ here, (operationBook crates host options dir file bounded safe).Recorded here →
      Orderly crates host options dir bounded here := by
    intro here recorded
    rcases recorded with gone | ⟨records, holds, logged⟩
    · exact .inl gone
    · obtain ⟨order, descends, foreign⟩ := ordered records holds
      exact .inr ⟨file, records, ⟨⟨logged.stores, logged.ordered⟩, foreign⟩, order, descends⟩
  refine (meets.guard_mono fun op here cautious => ?_).mono fun _ finish => orderly finish
  have survives := cautious.survives
  exact ⟨orderly here survives.1, fun left torn => orderly left (survives.2 left torn)⟩

/-- A recovery leaves a journal in order, also where not even the header was written. -/
theorem recover_orderly (orderly : Orderly crates host options dir bounded world)
    (there : (world.look (host.slot dir operationJournal)).isSome = true)
    (controls : FsRoot.Controls host root dir world) :
    (recoverOperationTransaction crates root options).run.Meets (fsMachine host weather)
      ((fsMachine host weather).Survives (Orderly crates host options dir bounded))
      (fun _ finish => Orderly crates host options dir bounded finish) world := by
  rcases orderly with gone | ⟨file, records, holds, order, descends⟩
  · rw [gone] at there
    cases there
  by_cases begun : records = []
  · subst begun
    have ordered : ∀ records : List Record, records = [] →
        InOrder records ∧ Descends (aftermath records) ∧ Foreign file records := by
      rintro _ rfl
      exact (Underway.nil file).preparing.orderly
    have logged : (operationBook crates host options dir file bounded (· = [])).Logged [] world :=
      ⟨holds.logged.stores, holds.logged.ordered⟩
    apply orderly_of_book ordered
    apply Logbook.recover_runs ⟨rfl, rfl⟩ controls rfl logged
    exact fun here logged => Logbook.recoverOperation_empty _ root rfl rfl logged
  · have ordered : ∀ found,
        (recoveryBook crates host options dir file bounded records).safe found →
          InOrder found ∧ Descends (aftermath found) ∧ Foreign file found := by
      intro found safe
      obtain ⟨_, _, kept⟩ := recoveryBook_order holds.foreign safe
      exact kept
    have logged :
        (recoveryBook crates host options dir file bounded records).Logged records world :=
      ⟨holds.logged.stores, holds.logged.ordered⟩
    apply orderly_of_book ordered
    exact Logbook.recover_meets
      (recoveryBook_resumable (ordered_begins holds.logged.ordered begun) holds.foreign) ⟨rfl, rfl⟩
      controls (recoveryBook_safe order descends) logged

/-! ### The whole life -/

/-- What each thing that is done keeps, all of them keep. -/
theorem Life.orderly (orderly : Orderly crates host options dir bounded start)
    (controls : FsRoot.Controls host root dir start)
    (life : Life crates host weather root options dir bounded start world) :
    Orderly crates host options dir bounded world ∧ FsRoot.Controls host root dir world := by
  have leads : (fsMachine host weather).Maintains (fun _ => True) (FsRoot.Controls host root dir) :=
    FsRoot.controls_maintains root dir
  induction life with
  | begins => exact ⟨orderly, controls⟩
  | prepared _ panics plan result finish returned ih =>
      obtain ⟨orderly, controls⟩ := ih
      exact ⟨((prepare_orderly orderly controls panics plan).returns returned).1,
        (Task.maintains_meets leads.phased _ controls).returns returned⟩
  | prepareCut _ panics plan left crashed ih =>
      obtain ⟨orderly, controls⟩ := ih
      have kept := (prepare_orderly orderly controls panics plan).crashes
        (fun _ _ ended => ended.1) crashed
      have leading : FsRoot.Controls host root dir left :=
        (Task.maintains_meets leads.phased _ controls).crashes (fun _ _ => id) crashed
      exact ⟨kept.congr rfl, leading⟩
  | ended _ panics plan transaction ready here returned same controls ending finish done regular ih =>
      obtain ⟨orderly, leading⟩ := ih
      obtain ⟨base, handed⟩ :=
        ((prepare_orderly orderly leading panics plan).returns returned).2 transaction rfl
      have handed := handed.congr same controls
      have closes : (ending.run crates transaction).Meets (fsMachine host weather) _ _ here :=
        handed.ready.closes ending
      exact ⟨handed.orderly (closes.returns done) regular,
        (Task.maintains_meets leads _ controls).returns done⟩
  | endingCut _ panics plan transaction ready here returned same controls ending left crashed
      regular ih =>
      obtain ⟨orderly, leading⟩ := ih
      obtain ⟨base, handed⟩ :=
        ((prepare_orderly orderly leading panics plan).returns returned).2 transaction rfl
      have handed := handed.congr same controls
      have kept := handed.orderly (Logbook.recorded_crashes (handed.ready.closes ending) crashed)
        regular
      have leading : FsRoot.Controls host root dir left :=
        (Task.maintains_meets leads _ controls).crashes (fun _ _ => id) crashed
      exact ⟨kept.congr rfl, leading⟩
  | recovered _ there result finish returned ih =>
      obtain ⟨orderly, controls⟩ := ih
      exact ⟨(recover_orderly orderly there controls).returns returned,
        (Task.maintains_meets leads _ controls).returns returned⟩
  | recoveryCut _ there left crashed ih =>
      obtain ⟨orderly, controls⟩ := ih
      have kept := (recover_orderly orderly there controls).crashes (fun _ _ => id) crashed
      have leading : FsRoot.Controls host root dir left :=
        (Task.maintains_meets leads _ controls).crashes (fun _ _ => id) crashed
      exact ⟨kept.congr rfl, leading⟩
  | others _ finish same controls ih => exact ⟨ih.1.congr same, controls⟩

/-- Whatever is done in the life of the state directory, ended or cut, and whatever fails in
it: the operation journal is gone or in order, and can be replayed wherever its
preparation can; and while it is there no other is begun. -/
theorem life_inOrder (orderly : Orderly crates host options dir bounded start)
    (controls : FsRoot.Controls host root dir start)
    (life : Life crates host weather root options dir bounded start world) :
    (world.look (host.slot dir operationJournal) = none ∨
      ∃ file records, Filed crates host options dir bounded file records world ∧
        InOrder records ∧ Descends (aftermath records) ∧ Acceptable crates root options records) ∧
    Bars crates host weather root options dir world := by
  obtain ⟨kept, controls⟩ := life.orderly orderly controls
  refine ⟨?_, kept.bars controls⟩
  rcases kept with gone | ⟨file, records, holds, order, descends⟩
  · exact .inl gone
  · exact .inr ⟨file, records, holds, order, descends, order.acceptable⟩

end

/-! ### A preparation, and a recovery that is cut -/

section Bare

@[irreducible] private def livedPrepare : Planning PreparedWorktreeTransaction :=
  prepareOperationPlan plainCrates (fun _ => none) ⟨0, 0⟩ plainOptions createPlan

private def livedWorld : World :=
  (livedPrepare.run.phasedRun (fsKernel .plain) bareWorld).2

/-- The preparation of `a` came to its end, and the recovery of it was cut when it had
removed the stage and recorded its end. -/
def recoveredWorld : World :=
  ((recoverOperationTransaction plainCrates ⟨0, 0⟩ plainOptions).run.cut (fsKernel .plain) 30
    livedWorld).reboot

/-- The journal is there at the end of that life, and so in order. -/
theorem life_inOrder_recovered :
    (∃ file records, Filed plainCrates .plain plainOptions 2 (by decide) file records
        recoveredWorld ∧ InOrder records ∧ Descends (aftermath records) ∧
      Acceptable plainCrates ⟨0, 0⟩ plainOptions records) ∧
    Bars plainCrates .plain .stormy ⟨0, 0⟩ plainOptions 2 recoveredWorld := by
  have bounded : plainOptions.limits.maxJournalBytes < u64Max := by decide
  have same : livedPrepare = prepareOperationPlan plainCrates (fun _ => none) ⟨0, 0⟩ plainOptions
      createPlan := by
    unfold livedPrepare
    rfl
  have some_worker : livedPrepare.run.manned (fsKernel .plain) bareWorld = true := by
    decide +kernel
  have returned : livedPrepare.run.Returns (fsMachine .plain .stormy).phased bareWorld _ _ :=
    Task.returns_phasedRun (step_exec trivial) livedPrepare.run bareWorld some_worker
  have pending : (livedWorld.look ⟨2, operationJournal⟩).isSome = true ∧
      (recoveredWorld.look ⟨2, operationJournal⟩).isSome = true := by decide +kernel
  rw [same] at returned
  have prepared : Life plainCrates .plain .stormy ⟨0, 0⟩ plainOptions 2 bounded bareWorld
      livedWorld := by
    rw [show livedWorld = _ from congrArg (fun program : Planning _ =>
      (program.run.phasedRun (fsKernel .plain) bareWorld).2) same]
    exact .prepared .begins (fun _ => none) createPlan _ _ returned
  have life : Life plainCrates .plain .stormy ⟨0, 0⟩ plainOptions 2 bounded bareWorld
      recoveredWorld :=
    .recoveryCut prepared pending.1 _ (Task.crashes_cut (step_exec trivial) 30 _ livedWorld)
  obtain ⟨gone | kept, bars⟩ := life_inOrder (.inl rfl) bare_controls life
  · have absent : recoveredWorld.look ⟨2, operationJournal⟩ = none := gone
    rw [absent] at pending
    cases pending.2
  · exact ⟨kept, bars⟩

end Bare

end Worktree
