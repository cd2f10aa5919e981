import Worktree.Operation.Leaving
import Worktree.Undo.Flagging
/-
What a commit makes of the worktree, whatever fails in it.

Every path is verified before the first of them changes, and a path that is
changed is found as it was journaled. A commit that ends well leaves every path
in its after state; one that fails without asking for a recovery leaves every
path in its before state, if need be out of the backup.
-/

namespace Worktree

open CrashLogic

/-- The entry shows exactly this: nothing, or a file of one name with this evidence. -/
def Exhibits (sha256 : Bytes → Sha256Hash) (device : Nat) (view : Option Seen) :
    SlotEvidence → Prop
  | .absent => view = none
  | .present evidence => ∃ seen, view = some seen ∧ seen.File device ∧ seen.links = 1 ∧
      evidence = seen.evidence sha256

namespace StagedPath

variable {T : Type}

/-- The entries a path is about: its target and its artifacts. -/
def slots (host : Host) (path : StagedPath) : List Slot :=
  path.access.slot host :: path.names.map (path.access.artifact host)

/-- What the target shows is this. -/
def Displays (crates : Crates T) (host : Host) (world : World) (path : StagedPath)
    (evidence : SlotEvidence) : Prop :=
  Shows crates.sha256 path.access.rootDevice (world.look (path.access.slot host)) evidence

/-- What the target must show afterwards lies beside it. -/
def Ready (crates : Crates T) (host : Host) (path : StagedPath) (world : World) : Prop :=
  match path.stageName, path.after with
  | none, .absent => True
  | some name, .present evidence => ∃ seen,
      world.look (path.access.artifact host name) = some seen ∧
        seen.File path.access.rootDevice ∧ seen.links = 1 ∧ evidence = seen.evidence crates.sha256
  | _, _ => False

/-- The path may be changed: it is in its before state, and all is prepared. -/
structure Poised (crates : Crates T) (host : Host) (path : StagedPath) (world : World) : Prop where
  housed : path.access.Housed world
  before : path.Displays crates host world path.before
  ready : path.Ready crates host world

/-- The path has its after state. -/
def Changed (crates : Crates T) (host : Host) (path : StagedPath) (world : World) : Prop :=
  Exhibits crates.sha256 path.access.rootDevice (world.look (path.access.slot host)) path.after

/-- The path has its before state, and if it was there, as its backup. -/
def Restored (crates : Crates T) (host : Host) (path : StagedPath) (world : World) : Prop :=
  match path.before with
  | .absent => world.look (path.access.slot host) = none
  | .present before => ∃ backup, path.backup = some backup ∧
      path.Displays crates host world (.present { before with identity := backup.identity })

end StagedPath

/-- The paths have entries of their own, none of which is the journal, and all
artifacts have names the program gives. -/
structure Separate (host : Host) (journal : Slot) (paths : List StagedPath) : Prop where
  valid : ∀ path ∈ paths, ∀ name ∈ path.names, validateArtifactName name = .ok ()
  apart : ∀ path ∈ paths, (path.slots host).Nodup
  outside : ∀ path ∈ paths, journal ∉ path.slots host
  distinct : paths.Pairwise fun one other => (one.slots host).Disjoint (other.slots host)

section

variable {host : Host} {journal : Slot} {paths rest : List StagedPath} {path other : StagedPath}

namespace Separate

theorem tail (separate : Separate host journal (path :: rest)) : Separate host journal rest where
  valid := fun other among => separate.valid other (List.mem_cons_of_mem _ among)
  apart := fun other among => separate.apart other (List.mem_cons_of_mem _ among)
  outside := fun other among => separate.outside other (List.mem_cons_of_mem _ among)
  distinct := (List.pairwise_cons.mp separate.distinct).2

theorem head (separate : Separate host journal (path :: rest)) (among : other ∈ rest) :
    (path.slots host).Disjoint (other.slots host) :=
  (List.pairwise_cons.mp separate.distinct).1 other among

theorem sublist {some : List StagedPath} (separate : Separate host journal paths)
    (within : some.Sublist paths) : Separate host journal some where
  valid := fun other among => separate.valid other (within.subset among)
  apart := fun other among => separate.apart other (within.subset among)
  outside := fun other among => separate.outside other (within.subset among)
  distinct := separate.distinct.sublist within

theorem reverse (separate : Separate host journal paths) :
    Separate host journal paths.reverse where
  valid := fun other among => separate.valid other (List.mem_reverse.mp among)
  apart := fun other among => separate.apart other (List.mem_reverse.mp among)
  outside := fun other among => separate.outside other (List.mem_reverse.mp among)
  distinct := List.pairwise_reverse.mpr (separate.distinct.imp fun disjoint => disjoint.symm)

/-- Two of the paths are the same or share nothing. -/
theorem same_or_disjoint (separate : Separate host journal paths) (one : path ∈ paths)
    (two : other ∈ paths) : path = other ∨ (path.slots host).Disjoint (other.slots host) := by
  have symmetric : Std.Symm fun one other : StagedPath =>
      (one.slots host).Disjoint (other.slots host) := ⟨fun _ _ disjoint => disjoint.symm⟩
  by_cases same : path = other
  · exact .inl same
  · exact .inr (separate.distinct.forall one two same)

end Separate

/-- The entries of all these paths. -/
def Ours (host : Host) (paths : List StagedPath) (slot : Slot) : Prop :=
  ∃ path ∈ paths, slot ∈ path.slots host

theorem ours_of_mem (among : path ∈ paths) (slot : Slot) (inside : slot ∈ path.slots host) :
    Ours host paths slot :=
  ⟨path, among, inside⟩

theorem Separate.not_ours (separate : Separate host journal paths) : ¬ Ours host paths journal :=
  fun ⟨path, among, inside⟩ => separate.outside path among inside

theorem target_mem (host : Host) (path : StagedPath) : path.access.slot host ∈ path.slots host :=
  List.mem_cons_self

theorem artifact_mem (host : Host) {name : String} (named : name ∈ path.names) :
    path.access.artifact host name ∈ path.slots host :=
  List.mem_cons_of_mem _ (List.mem_map_of_mem named)

theorem stage_named {name : String} (named : path.stageName = some name) : name ∈ path.names := by
  rw [StagedPath.names, named]
  exact List.mem_cons_self

theorem backup_named {name : String} (named : path.backupName = some name) : name ∈ path.names := by
  rw [StagedPath.names, named]
  exact List.mem_append_right _ (List.mem_singleton.mpr rfl)

/-- An artifact lies beside its target, not in its place. -/
theorem artifact_ne_target {name : String} (apart : (path.slots host).Nodup)
    (named : name ∈ path.names) : path.access.artifact host name ≠ path.access.slot host := by
  intro same
  exact (List.nodup_cons.mp apart).1 (same ▸ List.mem_map_of_mem named)

theorem pair_mem {name : String} (named : name ∈ path.names) (slot : Slot)
    (inside : path.access.Pair host name slot) : slot ∈ path.slots host := by
  rcases inside with rfl | rfl
  · exact target_mem host path
  · exact artifact_mem host named

theorem only_target_mem (slot : Slot) (inside : slot = path.access.slot host) :
    slot ∈ path.slots host :=
  inside ▸ target_mem host path

/-! ### What a commit finds out by looking -/

section

variable {T : Type} {crates : Crates T} {weather : Weather} {world : World}
  {transaction : PreparedWorktreeTransaction}

/-- A reader that answers what it saw. -/
theorem yields_of_answers {α : Type} {known : World → Prop} {program : Io α} {good : α → Prop}
    {clear missing : Prop} (learns : program.run.Learns (fsMachine host weather) known
      (Answers weather good clear missing)) :
    Task.Yields (fsMachine host weather) (fun _ => False) known program good := by
  refine learns.upholds.mono fun result answered value same => ?_
  subst same
  exact answered

theorem commit_verifySlot_yields (expected : SlotEvidence) (index : Nat) (message : String) :
    Task.Yields (fsMachine host weather) (fun _ => False) (fun here => here = world)
      (Commit.verifySlot crates transaction path expected index message) fun _ =>
        path.Displays crates host world expected := by
  unfold Commit.verifySlot
  refine Task.Yields.bind (Task.yields_adapt (yields_of_answers
    (TargetAccess.verifySlot_learns crates.sha256 expected _ (TargetAccess.here_look _))))
    fun actual found => ?_
  exact Task.yields_pure _ found.2

theorem verifyParentHandle_housed {access : TargetAccess} :
    Task.Yields (fsMachine host weather) (fun _ => False) (fun here => here = world)
      access.verifyParentHandle fun _ => access.Housed world := by
  unfold TargetAccess.verifyParentHandle
  have learns : (perform (.dirMetadata access.parent)).run.Learns (fsMachine host weather)
      (fun here => here = world) (Answers weather (fun metadata : Metadata =>
        metadata.device = (world.inodes access.parent).device) False True) := by
    refine learns_perform (quiet_dirMetadata access.parent) id (fun here same => ?_)
      fun fails here same error absent => ⟨False.elim, fun _ => trivial⟩
    subst same
    rfl
  have looked := yields_of_answers learns
  refine Task.Yields.bind looked fun metadata device => ?_
  refine yields_ite (fun _ => Task.yields_throw _) fun safe => ?_
  have housed : access.Housed world := by
    simp only [Bool.or_eq_true, decide_eq_true_eq, not_or, not_not] at safe
    exact device.symm.trans safe.2
  exact yields_ite (fun _ => Task.yields_throw _) fun _ => Task.yields_pure _ housed

theorem revalidateParent_housed (root : FsRoot) {access : TargetAccess} :
    Task.Yields (fsMachine host weather) (fun _ => False) (fun here => here = world)
      (root.revalidateParent crates access) fun _ => access.Housed world := by
  unfold FsRoot.revalidateParent
  refine Task.Yields.bind verifyParentHandle_housed fun _ housed => ?_
  refine Task.Yields.bind (openTarget_reads root access.path).yields fun reopened _ => ?_
  refine Task.Yields.bind (TargetAccess.verifyParentHandle_reads).yields fun _ _ => ?_
  exact yields_ite (fun _ => Task.yields_throw _) fun _ => Task.yields_pure _ housed

theorem artifact_yields (name : String) (maxBytes : Nat) {expected : PresentEvidence}
    (index : Nat) (message : String) :
    Task.Yields (fsMachine host weather) (fun _ => False) (fun here => here = world)
      (Commit.verifyArtifact crates path (some name) (some expected) maxBytes index message)
      fun _ => ∃ seen, world.look (path.access.artifact host name) = some seen ∧
        seen.File path.access.rootDevice ∧ seen.links = 1 ∧
        expected = seen.evidence crates.sha256 := by
  unfold Commit.verifyArtifact
  refine Task.Yields.bind (Task.yields_adapt (yields_of_answers
    (TargetAccess.artifactEvidence_learns crates.sha256 maxBytes (TargetAccess.here_look _))))
    fun actual found => ?_
  refine yields_ite (fun same => ?_) fun _ => Task.yields_throw _
  obtain ⟨seen, shows, file, single, _, rfl⟩ := found
  exact Task.yields_pure _ ⟨seen, shows, file, single, same.symm⟩

theorem stage_yields (maxBytes index : Nat) (message : String) :
    Task.Yields (fsMachine host weather) (fun _ => False) (fun here => here = world)
      (Commit.verifyArtifact crates path path.stageName path.after.present? maxBytes index message)
      fun _ => path.Ready crates host world := by
  unfold StagedPath.Ready
  cases path.stageName with
  | none =>
      cases path.after with
      | absent => exact Task.yields_pure _ trivial
      | present evidence => exact Task.yields_throw _
  | some name =>
      cases path.after with
      | absent => exact Task.yields_throw _
      | present evidence => exact artifact_yields name maxBytes index message

theorem verifyPath_yields (index : Nat) :
    Task.Yields (fsMachine host weather) (fun _ => False) (fun here => here = world)
      (Commit.verifyPath crates transaction path index) fun _ => path.Poised crates host world := by
  unfold Commit.verifyPath
  refine Task.Yields.bind (Task.yields_adapt (revalidateParent_housed _)) fun _ housed => ?_
  refine Task.Yields.bind (commit_verifySlot_yields _ _ _) fun _ before => ?_
  refine Task.Yields.bind (stage_yields _ _ _) fun _ ready => ?_
  refine Task.Yields.mono (Reads.yields (Logbook.verifyArtifact_rests path _ _ _ index _))
    fun _ _ => ⟨housed, before, ready⟩

/-- A plan is committed from the states it was prepared for. -/
theorem verifyAll_yields :
    Task.Yields (fsMachine host weather) (fun _ => False) (fun here => here = world)
      (Commit.verifyAll crates transaction) fun _ =>
        ∀ path ∈ transaction.paths, path.Poised crates host world := by
  have every : Task.Yields (fsMachine host weather) (fun _ => False) (fun here => here = world)
      (Commit.verifyAll crates transaction) fun _ =>
        ∀ item ∈ transaction.paths.zipIdx, item.1.Poised crates host world :=
    Task.yields_each fun item _ => verifyPath_yields item.2
  refine every.mono fun _ holds path among => ?_
  obtain ⟨index, listed⟩ := List.mem_iff_getElem?.mp among
  exact holds (path, index) (List.mem_zipIdx_iff_getElem?.mpr listed)

/-! ### What became of a path whose change failed -/

theorem showsSlot_upholds (expected : SlotEvidence) (maxBytes : Nat) :
    (Commit.showsSlot crates path expected maxBytes).Upholds (fsMachine host weather)
      (fun _ => False) (fun here => here = world)
      fun shown => shown = true → path.Displays crates host world expected := by
  unfold Commit.showsSlot
  rw [Task.upholds_bind]
  refine Task.Upholds.mono (yields_of_answers (TargetAccess.verifySlot_learns crates.sha256 expected
    maxBytes (TargetAccess.here_look _))) fun result found shown => ?_
  cases result with
  | ok actual => exact (found actual rfl).2
  | error error => cases shown

/-- A path that is said to be unchanged was seen in its before state. -/
theorem classifySlot_upholds :
    (Commit.classifySlot crates transaction path).Upholds (fsMachine host weather)
      (fun _ => False) (fun here => here = world)
      fun state => state = .unchanged → path.Displays crates host world path.before := by
  unfold Commit.classifySlot
  rw [Task.upholds_bind]
  refine (showsSlot_upholds path.after _).mono fun after _ => ?_
  cases after with
  | true => exact fun impossible => by cases impossible
  | false =>
      change Task.Upholds _ _ _ (Commit.showsSlot crates path path.before _ >>= _) _
      rw [Task.upholds_bind]
      refine (showsSlot_upholds path.before _).mono fun before shown => ?_
      cases before with
      | true => exact fun _ => shown rfl
      | false => exact fun impossible => by cases impossible

theorem classify_upholds :
    (Commit.classify crates transaction path).Upholds (fsMachine host weather)
      (fun _ => False) (fun here => here = world)
      fun state => state = .unchanged → path.Displays crates host world path.before := by
  unfold Commit.classify
  cases path.stageName with
  | none => exact classifySlot_upholds
  | some stage =>
      change Task.Upholds _ _ _ ((path.access.sameFileAsArtifact stage).run >>= _) _
      rw [Task.upholds_bind]
      refine Task.Upholds.mono (Reads.yields (TargetAccess.sameFileAsArtifact_reads stage))
        fun result _ => ?_
      cases result with
      | ok linked =>
          cases linked with
          | true => exact fun impossible => by cases impossible
          | false => exact classifySlot_upholds
      | error error =>
          change Task.Upholds _ _ _ (if error.kind = .notFound then _ else _) _
          split
          · exact classifySlot_upholds
          · exact fun impossible => by cases impossible

/-! ### Changing one path -/

theorem StagedPath.Displays.plain {evidence : PresentEvidence}
    (displays : path.Displays crates host world (.present evidence)) :
    ∀ there, world.look (path.access.slot host) = some there →
      there.inode.kind = .file ∧ there.links = 1 := by
  intro there shows
  obtain ⟨seen, viewed, plain, _⟩ := displays
  cases viewed.symm.trans shows
  exact ⟨plain.file.1, plain.links⟩

/-- A change that ends well gives the path its after state. -/
theorem mutate_achieves (valid : ∀ name ∈ path.names, validateArtifactName name = .ok ())
    (apart : (path.slots host).Nodup) (poised : path.Poised crates host world) :
    Achieves host weather (· ∈ path.slots host) (Commit.mutate crates transaction path) world
      fun _ finish => path.Changed crates host finish := by
  obtain ⟨housed, before, ready⟩ := poised
  unfold Commit.mutate
  unfold StagedPath.Ready at ready
  unfold StagedPath.Changed
  cases was : path.before with
  | absent =>
      cases after : path.after with
      | absent => exact achieves_throw _
      | present evidence =>
          cases named : path.stageName with
          | none => rw [named, after] at ready; exact ready.elim
          | some stage =>
              rw [named, after] at ready
              obtain ⟨staged, shows, file, single, rfl⟩ := ready
              have mine := stage_named named
              have installed : Achieves host weather (path.access.Pair host stage)
                  (path.access.installAbsentFrom stage) world _ :=
                TargetAccess.installAbsentFrom_achieves (valid stage mine) housed
                  (artifact_ne_target apart mine)
              refine Achieves.adapt (Achieves.within (installed.mono fun _ finish _ ended => ?_)
                (pair_mem mine))
              obtain ⟨seen, installs, target, _⟩ := ended
              cases installs.shows.symm.trans shows
              exact ⟨_, target, file, single, rfl⟩
  | present evidence =>
      cases after : path.after with
      | absent =>
          exact Achieves.adapt (Achieves.within
            (TargetAccess.removeExact_achieves crates.sha256 evidence _) only_target_mem)
      | present output =>
          cases named : path.stageName with
          | none => rw [named, after] at ready; exact ready.elim
          | some stage =>
              rw [named, after] at ready
              obtain ⟨staged, shows, file, single, rfl⟩ := ready
              have mine := stage_named named
              rw [was] at before
              have replaced : Achieves host weather (path.access.Pair host stage)
                  (path.access.replaceFrom stage) world _ :=
                TargetAccess.replaceFrom_achieves (valid stage mine) housed
                  (Ne.symm (artifact_ne_target apart mine)) before.plain
              refine Achieves.adapt (Achieves.within (replaced.mono fun _ finish _ ended => ?_)
                (pair_mem mine))
              obtain ⟨seen, replaces, target, _⟩ := ended
              cases replaces.shows.symm.trans shows
              exact ⟨_, target, file, single, rfl⟩

/-- The target shows what it did, or its before state once more. -/
def Spared (crates : Crates T) (host : Host) (path : StagedPath) (start finish : World) : Prop :=
  finish.look (path.access.slot host) = start.look (path.access.slot host) ∨
    path.Displays crates host finish path.before

/-- What becomes of the path: it has its after state, or it is said to be unchanged and
shows its before state. -/
def Resolved (crates : Crates T) (host : Host) (path : StagedPath) (start : World) :
    Except (WorktreeError × MutationState) Unit → World → Prop
  | .ok _, finish => path.Changed crates host finish
  | .error (_, .unchanged), finish => Spared crates host path start finish
  | .error _, _ => True

section

variable {journal : Slot} {start here : World}

theorem Resolved.error {state : MutationState} {error : WorktreeError} {finish : World}
    (unchanged : state = .unchanged → Spared crates host path start finish) :
    Resolved crates host path start (.error (error, state)) finish := by
  cases state with
  | unchanged => exact unchanged rfl
  | changed => exact trivial
  | linkedInstall => exact trivial
  | ambiguous => exact trivial

theorem classified_carries {own : Slot → Prop} {action : Action Unit}
    {wrap : MutationState → WorktreeError → WorktreeError}
    (achieves : Achieves host weather own action here fun _ finish =>
      path.Changed crates host finish) (outside : ¬ own journal) :
    Carries host weather journal own (Commit.classified crates transaction path action wrap) here
      (Resolved crates host path start) := by
  intro writer alone
  unfold Commit.classified
  rw [ExceptT.run_mk, StateT.run_bind, Task.meets_bind, StateT.run_lift, Task.meets_bind]
  refine Task.Meets.mono achieves fun result finish ended => ?_
  obtain ⟨elsewhere, changed⟩ := ended
  have still := alone.elsewhere elsewhere outside
  have within : Elsewhere (Besides journal own) here finish := elsewhere.mono fun _ => .inr
  cases result with
  | ok value => exact ⟨still, within, changed value rfl⟩
  | error error =>
      change Task.Meets _ _ (((StateT.lift (Commit.classify crates transaction path) >>= fun state =>
        pure (.error (wrap state error, state)) :
          StateT Writer (Task FsOp) (Except (WorktreeError × MutationState) Unit))).run writer)
        _ finish
      rw [StateT.run_bind, Task.meets_bind, StateT.run_lift, Task.meets_bind]
      have told : Task.Meets (fsMachine host weather) (fun _ _ => True)
          (Commit.classify crates transaction path) (fun state last => last = finish ∧
            (state = .unchanged → path.Displays crates host finish path.before)) finish :=
        Task.Upholds.meets classify_upholds ⟨fun _ _ _ _ => False.elim, fun _ _ _ => False.elim⟩
          rfl (fun _ _ _ _ _ => trivial) fun _ _ => False.elim
      refine told.mono fun state last seen => ?_
      obtain ⟨rfl, unchanged⟩ := seen
      exact ⟨still, within, Resolved.error fun same => .inr (unchanged same)⟩

theorem synced_achieves {own : Slot → Prop} {good : World → Prop}
    (wrap : IoError → WorktreeError) (holds : good here) :
    Achieves host weather own (orElse path.access.syncParent wrap) here fun _ finish =>
      good finish :=
  achieves_of_yields (Task.yields_adapt (TargetAccess.syncParent_reads.yields.mono
    fun _ _ => holds))

/-- Nothing the path is about has changed. -/
theorem StagedPath.Poised.still {finish : World} {own : Slot → Prop}
    (poised : path.Poised crates host start) (elsewhere : Elsewhere own start finish)
    (outside : ∀ slot ∈ path.slots host, ¬ own slot) : path.Poised crates host finish := by
  have same : ∀ slot ∈ path.slots host, finish.look slot = start.look slot :=
    fun slot inside => elsewhere.looks slot (outside slot inside)
  constructor
  · exact (elsewhere.devices _).trans poised.housed
  · unfold StagedPath.Displays
    rw [same _ (target_mem host path)]
    exact poised.before
  · have ready := poised.ready
    unfold StagedPath.Ready at ready ⊢
    cases named : path.stageName with
    | none =>
        rw [named] at ready
        cases after : path.after with
        | absent => exact trivial
        | present evidence => rw [after] at ready; exact ready.elim
    | some stage =>
        rw [named] at ready
        cases after : path.after with
        | absent => rw [after] at ready; exact ready.elim
        | present evidence =>
            rw [after] at ready
            obtain ⟨seen, shows, kept⟩ := ready
            exact ⟨seen, (same _ (artifact_mem host (stage_named named))).trans shows, kept⟩

theorem StagedPath.Changed.still {finish : World} {own : Slot → Prop}
    (changed : path.Changed crates host start) (elsewhere : Elsewhere own start finish)
    (outside : ∀ slot ∈ path.slots host, ¬ own slot) : path.Changed crates host finish := by
  unfold StagedPath.Changed
  rw [elsewhere.looks _ (outside _ (target_mem host path))]
  exact changed

/-- A step before the change leaves the path as it was. -/
theorem commit_step {action : Action Unit} {good : Unit → Prop} {state : MutationState}
    (yields : Task.Yields (fsMachine host weather) (fun _ => False) (fun world => world = here)
      action good) :
    Carries host weather journal (fun _ => False) (action.step state) here fun result _ =>
      ∀ error, result = .error error → error.2 = state := by
  have looked : Achieves host weather (fun _ => False) action here fun value _ => good value :=
    achieves_of_yields yields
  apply Carries.adapt
  refine (carries_lift looked id).mono fun result finish _ _ error same => ?_
  cases result with
  | ok value => cases same
  | error failure =>
      cases same
      rfl

theorem commit_append (record : Record) (state : MutationState)
    (wrap : JournalError → WorktreeError) :
    Carries host weather journal (fun _ => False) (appendStep crates record state wrap) here
      fun result _ => ∀ error, result = .error error → error.2 = state := by
  apply Carries.adapt
  refine carries_append record wrap (fun finish _ error same => ?_)
    fun finish failure _ error same => ?_
  · cases same
  · cases same
    rfl

/-- The journal is none of the path's entries. -/
theorem not_besides (outside : journal ∉ path.slots host) :
    ∀ slot ∈ path.slots host, ¬ Besides journal (fun _ => False) slot := by
  rintro slot inside (rfl | impossible)
  · exact outside inside
  · exact impossible

theorem commitOne_carries (valid : ∀ name ∈ path.names, validateArtifactName name = .ok ())
    (apart : (path.slots host).Nodup) (outside : journal ∉ path.slots host) (index : Nat)
    (poised : path.Poised crates host start) :
    Carries host weather journal (· ∈ path.slots host)
      (Commit.commitOne crates transaction path index) start (Resolved crates host path start) := by
  have beside := not_besides outside
  have early : ∀ {finish : World} {error : WorktreeError × MutationState},
      Elsewhere (Besides journal fun _ => False) start finish → error.2 = .unchanged →
      Resolved crates host path start (.error error) finish := by
    rintro finish ⟨error, state⟩ elsewhere rfl
    exact Resolved.error fun _ => .inl (elsewhere.looks _ (beside _ (target_mem host path)))
  have narrow : ∀ slot, False → slot ∈ path.slots host := fun _ => False.elim
  unfold Commit.commitOne
  apply Carries.bind ((commit_step (Task.yields_adapt
    (Reads.yields (revalidateParent_reads _ _)))).within narrow)
  · intro _ second _ first
    apply Carries.bind ((commit_step (commit_verifySlot_yields _ _ _)).within narrow)
    · intro _ third _ checked
      apply Carries.bind ((commit_append _ _ _).within narrow)
      · intro _ fourth _ announced
        have quiet := (first.1.trans checked.1).trans announced.1
        apply Carries.bind (classified_carries
          (mutate_achieves valid apart (poised.still quiet beside)) outside)
        · intro _ fifth _ changed
          apply Carries.bind (classified_carries (synced_achieves _ changed) outside)
          · intro _ sixth _ kept
            refine (commit_append _ _ _).within narrow |>.mono fun result finish _ ended => ?_
            cases result with
            | ok value => exact StagedPath.Changed.still kept ended.1 beside
            | error error =>
                obtain ⟨error, state⟩ := error
                refine Resolved.error fun impossible => ?_
                cases ended.2 _ rfl
                cases impossible
          · exact fun _ _ _ resolved => resolved
        · exact fun _ _ _ resolved => resolved
      · exact fun _ _ _ failed => early ((first.1.trans checked.1).trans failed.1) (failed.2 _ rfl)
    · exact fun _ _ _ failed => early (first.1.trans failed.1) (failed.2 _ rfl)
  · exact fun _ _ _ failed => early failed.1 (failed.2 _ rfl)

/-! ### Changing the paths in order -/

/-- Every path has its after state, or those that may have been changed are listed. -/
def Stopped (crates : Crates T) (host : Host) (done paths : List StagedPath) (start : World) :
    Except Commit.Failure Unit → World → Prop
  | .ok _, finish => ∀ path ∈ paths, path.Changed crates host finish
  | .error (.ambiguous _), _ => True
  | .error (.changed _ changed), finish => ∃ taken : List StagedPath, changed = done ++ taken ∧
      taken.Sublist paths ∧ ∀ path ∈ paths, path ∈ taken ∨ Spared crates host path start finish

/-- The journal and the entries of the one are none of the other's. -/
theorem disjoint_besides {other : StagedPath}
    (disjoint : (path.slots host).Disjoint (other.slots host))
    (outside : journal ∉ other.slots host) :
    ∀ slot ∈ other.slots host, ¬ Besides journal (· ∈ path.slots host) slot := by
  rintro slot inside (rfl | mine)
  · exact outside inside
  · exact disjoint mine inside

/-- The first path is changed, and then the others. -/
theorem Stopped.cons {done rest : List StagedPath} {finish : World}
    {result : Except Commit.Failure Unit}
    (apart : ∀ other ∈ rest, ∀ slot ∈ other.slots host,
      ¬ Besides journal (· ∈ path.slots host) slot)
    (own : ∀ slot ∈ path.slots host, ¬ Besides journal (Ours host rest) slot)
    (first : Elsewhere (Besides journal (· ∈ path.slots host)) start here)
    (changed : path.Changed crates host here)
    (later : Elsewhere (Besides journal (Ours host rest)) here finish)
    (stopped : Stopped crates host (done ++ [path]) rest here result finish) :
    Stopped crates host done (path :: rest) start result finish := by
  cases result with
  | ok value =>
      intro other among
      rcases List.mem_cons.mp among with rfl | among
      · exact changed.still later own
      · exact stopped other among
  | error failure =>
      cases failure with
      | ambiguous error => exact trivial
      | changed error listed =>
          obtain ⟨taken, rfl, within, spared⟩ := stopped
          refine ⟨path :: taken, List.append_assoc _ _ _, within.cons_cons _, fun other among => ?_⟩
          rcases List.mem_cons.mp among with rfl | among
          · exact .inl List.mem_cons_self
          · refine (spared other among).imp (List.mem_cons_of_mem _) (Or.imp_left fun same => ?_)
            exact same.trans (first.looks _ (apart other among _ (target_mem host other)))

/-- The first path fails. -/
theorem Stopped.first {done rest : List StagedPath} {finish : World}
    {error : WorktreeError × MutationState}
    (apart : ∀ other ∈ rest, ∀ slot ∈ other.slots host,
      ¬ Besides journal (· ∈ path.slots host) slot)
    (elsewhere : Elsewhere (Besides journal (· ∈ path.slots host)) start finish)
    (resolved : Resolved crates host path start (.error error) finish) :
    Stopped crates host done (path :: rest) start (.error (Commit.failure done path error))
      finish := by
  have others : ∀ other ∈ rest, Spared crates host other start finish := fun other among =>
    .inl (elsewhere.looks _ (apart other among _ (target_mem host other)))
  have taken : ∀ other ∈ path :: rest, other ∈ [path] ∨ Spared crates host other start finish := by
    intro other among
    rcases List.mem_cons.mp among with rfl | among
    · exact .inl List.mem_cons_self
    · exact .inr (others other among)
  have single : [path].Sublist (path :: rest) := List.singleton_sublist.mpr List.mem_cons_self
  obtain ⟨error, state⟩ := error
  cases state with
  | unchanged =>
      refine ⟨[], (List.append_nil _).symm, List.nil_sublist _, fun other among => .inr ?_⟩
      rcases List.mem_cons.mp among with rfl | among
      · exact resolved
      · exact others other among
  | changed => exact ⟨[path], rfl, single, taken⟩
  | linkedInstall => exact ⟨[path], rfl, single, taken⟩
  | ambiguous => exact trivial

theorem commitPaths_carries (done : List StagedPath) (rest : List (StagedPath × Nat))
    (separate : Separate host journal (rest.map Prod.fst))
    (poised : ∀ path ∈ rest.map Prod.fst, path.Poised crates host start) :
    Carries host weather journal (Ours host (rest.map Prod.fst))
      (Commit.commitPaths crates transaction done rest) start
      (Stopped crates host done (rest.map Prod.fst) start) := by
  induction rest generalizing done start with
  | nil => exact carries_pure _ fun _ among => by cases among
  | cons item rest ih =>
      obtain ⟨path, index⟩ := item
      change Separate host journal (path :: rest.map Prod.fst) at separate
      have among : path ∈ path :: rest.map Prod.fst := List.mem_cons_self
      have apart : ∀ other ∈ rest.map Prod.fst, ∀ slot ∈ other.slots host,
          ¬ Besides journal (· ∈ path.slots host) slot := fun other later =>
        disjoint_besides (separate.head later) (separate.tail.outside other later)
      have own :
          ∀ slot ∈ path.slots host, ¬ Besides journal (Ours host (rest.map Prod.fst)) slot := by
        rintro slot mine (rfl | ⟨other, later, inside⟩)
        · exact separate.outside path among mine
        · exact separate.head later mine inside
      have one : Carries host weather journal (Ours host (path :: rest.map Prod.fst))
          (ExceptT.adapt (Commit.failure done path)
            (Commit.commitOne crates transaction path index)) start fun result finish =>
              ∃ found : Except (WorktreeError × MutationState) Unit,
                result = found.mapError (Commit.failure done path) ∧
                Elsewhere (Besides journal (· ∈ path.slots host)) start finish ∧
                Resolved crates host path start found finish :=
        Carries.adapt (((commitOne_carries (separate.valid path among) (separate.apart path among)
          (separate.outside path among) index (poised path among)).within
            (ours_of_mem among)).mono fun result _ _ ended => ⟨result, rfl, ended⟩)
      unfold Commit.commitPaths
      apply Carries.bind one
      · intro value here _ ended
        obtain ⟨found, same, first, resolved⟩ := ended
        cases found with
        | error error => cases same
        | ok value =>
            have others := ih (done ++ [path]) separate.tail fun other later =>
              (poised other (List.mem_cons_of_mem _ later)).still first (apart other later)
            refine (others.within fun slot inside => ?_).mono fun result finish _ ended => ?_
            · obtain ⟨other, later, inside⟩ := inside
              exact ⟨other, List.mem_cons_of_mem _ later, inside⟩
            · exact Stopped.cons apart own first resolved ended.1 ended.2
      · intro failure finish _ ended
        obtain ⟨found, same, first, resolved⟩ := ended
        cases found with
        | ok value => cases same
        | error error =>
            cases same
            exact Stopped.first apart first resolved

/-! ### Restoring one path -/

theorem sameFileOrFalse_yields (access : TargetAccess) (artifact : Option String) :
    Task.Yields (fsMachine host weather) (fun _ => False) (fun world => world = here)
      (Commit.sameFileOrFalse access artifact) fun found =>
        ∀ stage, found = some stage → artifact = some stage := by
  have nothing : ∀ stage, (none : Option String) = some stage → artifact = some stage :=
    fun _ impossible => by cases impossible
  unfold Commit.sameFileOrFalse
  cases artifact with
  | none => exact Task.yields_pure _ nothing
  | some stage =>
      refine Task.Yields.bind (Task.yields_lift (Task.Upholds.mono (Reads.yields
        (TargetAccess.sameFileAsArtifact_reads stage)) fun _ _ => trivial)) fun result _ => ?_
      cases result with
      | error error => exact Task.yields_pure _ nothing
      | ok linked =>
          cases linked with
          | false => exact Task.yields_pure _ nothing
          | true => exact Task.yields_pure _ fun _ same => same

theorem restoreAbsent_achieves
    (valid : ∀ name ∈ path.names, validateArtifactName name = .ok ())
    (apart : (path.slots host).Nodup) :
    Achieves host weather (· ∈ path.slots host) (Commit.restoreAbsent crates transaction path) here
      fun _ finish => finish.look (path.access.slot host) = none := by
  unfold Commit.restoreAbsent
  have looked : Achieves host weather (· ∈ path.slots host)
      (Commit.sameFileOrFalse path.access path.stageName) here fun found _ =>
        ∀ stage, found = some stage → path.stageName = some stage :=
    achieves_of_yields (sameFileOrFalse_yields _ _)
  apply Achieves.bind looked
  intro linked middle _ named
  cases linked with
  | some stage =>
      have mine := stage_named (named stage rfl)
      have reversed : Achieves host weather (path.access.Pair host stage)
          (path.access.rollbackLinkedInstall stage) middle _ :=
        TargetAccess.rollbackLinkedInstall_achieves (valid stage mine)
          (artifact_ne_target apart mine)
      apply Achieves.bind (Achieves.adapt (reversed.within (pair_mem mine)))
      exact fun _ _ _ gone => synced_achieves _ gone
  | none =>
      have read : Achieves host weather (· ∈ path.slots host) (liftWorktree (fromOption
          path.after.present? (Commit.rollbackLogic path "absent source has no present output")))
          middle fun _ _ => True :=
        achieves_of_yields (Task.yields_result _ fun _ _ => trivial)
      apply Achieves.bind read
      intro after second _ _
      apply Achieves.bind (Achieves.adapt ((TargetAccess.removeExact_achieves crates.sha256 after
        _).within only_target_mem))
      exact fun _ _ _ gone => synced_achieves _ gone

theorem restorePresent_achieves
    (valid : ∀ name ∈ path.names, validateArtifactName name = .ok ())
    (apart : (path.slots host).Nodup) (housed : path.access.Housed here)
    (before : PresentEvidence) :
    Achieves host weather (· ∈ path.slots host)
      (Commit.restorePresent crates transaction path before) here fun _ finish =>
        ∃ backup, path.backup = some backup ∧ path.Displays crates host finish
          (.present { before with identity := backup.identity }) := by
  have verified : ∀ world, Achieves host weather (· ∈ path.slots host) (do
      orElse path.access.syncParent (Commit.rollbackError path "rollback did not synchronize")
      let evidence ← liftWorktree (fromOption path.backup
        (Commit.rollbackLogic path "backup evidence is missing"))
      let _ ← orElse (path.access.verifySlot crates.sha256
          (.present { before with identity := evidence.identity })
          transaction.options.limits.maxSourceBytesPerFile)
        (Commit.rollbackError path "restored backup failed verification") : Action Unit) world
      fun _ finish => ∃ backup, path.backup = some backup ∧ path.Displays crates host finish
        (.present { before with identity := backup.identity }) := by
    intro world
    apply achieves_of_yields
    refine Task.Yields.bind (Task.yields_adapt TargetAccess.syncParent_reads.yields) fun _ _ => ?_
    refine Task.Yields.bind (Task.yields_result _ fun backup same => fromOption_ok_iff.mp same)
      fun backup kept => ?_
    refine Task.Yields.bind (Task.yields_adapt (yields_of_answers
      (TargetAccess.verifySlot_learns crates.sha256 _ _ (TargetAccess.here_look _))))
      fun _ shown => ?_
    exact Task.yields_pure _ ⟨backup, kept, shown.2⟩
  unfold Commit.restorePresent
  have listed : Achieves host weather (· ∈ path.slots host)
      (liftWorktree (Commit.required path.backupName path)) here fun name world =>
        path.backupName = some name ∧ path.access.Housed world :=
    achieves_of_yields (Task.yields_result _
      fun name same => ⟨fromOption_ok_iff.mp same, housed⟩)
  apply Achieves.bind listed
  intro backup second _ named
  obtain ⟨named, housed⟩ := named
  have mine := backup_named named
  have inspected : ∀ wrap : IoError → WorktreeError, Achieves host weather (· ∈ path.slots host)
      (orElse (path.access.slotEvidence crates.sha256
        transaction.options.limits.maxOutputBytesPerFile) wrap) second fun evidence world =>
          path.Displays crates host world evidence ∧ path.access.Housed world :=
    fun wrap => achieves_of_yields (Task.yields_adapt ((yields_of_answers
      (TargetAccess.slotEvidence_learns crates.sha256 _ (TargetAccess.here_look _))).mono
        fun _ found => ⟨found, housed⟩))
  apply Achieves.bind (inspected _)
  intro actual third _ found
  obtain ⟨found, housed⟩ := found
  cases actual with
  | absent =>
      have installed : Achieves host weather (path.access.Pair host backup)
          (path.access.installAbsentFrom backup) third _ :=
        TargetAccess.installAbsentFrom_achieves (valid backup mine) housed
          (artifact_ne_target apart mine)
      apply Achieves.bind (Achieves.adapt (installed.within (pair_mem mine)))
      exact fun _ world _ _ => verified world
  | present evidence =>
      dsimp only
      split
      · have replaced : Achieves host weather (path.access.Pair host backup)
            (path.access.replaceFrom backup) third _ :=
          TargetAccess.replaceFrom_achieves (valid backup mine) housed
            (Ne.symm (artifact_ne_target apart mine)) (StagedPath.Displays.plain found)
        apply Achieves.bind (Achieves.adapt (replaced.within (pair_mem mine)))
        exact fun _ world _ _ => verified world
      · exact achieves_throw _

/-- A path that is restored is in its before state, if need be out of its backup. -/
theorem restore_achieves (valid : ∀ name ∈ path.names, validateArtifactName name = .ok ())
    (apart : (path.slots host).Nodup) (housed : path.access.Housed here) :
    Achieves host weather (· ∈ path.slots host) (Commit.restore crates transaction path) here
      fun _ finish => path.Restored crates host finish := by
  unfold Commit.restore StagedPath.Restored
  cases path.before with
  | absent => exact restoreAbsent_achieves valid apart
  | present before => exact restorePresent_achieves valid apart housed before

theorem StagedPath.Restored.still {finish : World} {own : Slot → Prop}
    (restored : path.Restored crates host start) (elsewhere : Elsewhere own start finish)
    (outside : ∀ slot ∈ path.slots host, ¬ own slot) : path.Restored crates host finish := by
  unfold StagedPath.Restored StagedPath.Displays at restored ⊢
  rw [elsewhere.looks _ (outside _ (target_mem host path))]
  exact restored

theorem rollbackOne_carries (valid : ∀ name ∈ path.names, validateArtifactName name = .ok ())
    (apart : (path.slots host).Nodup) (outside : journal ∉ path.slots host)
    (housed : path.access.Housed start) :
    Carries host weather journal (· ∈ path.slots host)
      (Commit.rollbackOne crates transaction path) start fun result finish =>
        ∀ value, result = .ok value → path.Restored crates host finish := by
  have alone : ∀ slot ∈ path.slots host, slot ≠ journal :=
    fun slot inside same => outside (same ▸ inside)
  unfold Commit.rollbackOne
  have announced : ∀ wrap : JournalError → WorktreeError, Carries host weather journal
      (· ∈ path.slots host) (appendOr crates (.rollbackIntent path.stableIndex) wrap) start
      fun _ finish => path.access.Housed finish :=
    fun wrap => carries_append _ _ (fun _ elsewhere => (elsewhere.devices _).trans housed)
      fun _ _ elsewhere => (elsewhere.devices _).trans housed
  apply Carries.bind (announced _)
  · intro _ second _ housed
    apply Carries.bind (carries_lift (Achieves.adapt (restore_achieves valid apart housed)) outside)
    · intro _ third _ restored
      refine carries_append _ _ (fun finish elsewhere _ _ => ?_) fun _ _ _ _ same => by cases same
      exact (restored _ rfl).still elsewhere alone
    · exact fun _ _ _ _ _ same => by cases same
  · exact fun _ _ _ _ _ same => by cases same

/-- The paths are restored one after the other. -/
theorem rollbackPaths_carries {paths : List StagedPath} (separate : Separate host journal paths)
    (housed : ∀ path ∈ paths, path.access.Housed start) :
    Carries host weather journal (Ours host paths)
      (paths.forM (Commit.rollbackOne crates transaction)) start fun result finish =>
        ∀ value, result = .ok value → ∀ path ∈ paths, path.Restored crates host finish := by
  induction paths generalizing start with
  | nil => exact carries_pure _ fun _ _ _ among => by cases among
  | cons path rest ih =>
      have among : path ∈ path :: rest := List.mem_cons_self
      have own : ∀ slot ∈ path.slots host, ¬ Besides journal (Ours host rest) slot := by
        rintro slot mine (rfl | ⟨other, later, inside⟩)
        · exact separate.outside path among mine
        · exact separate.head later mine inside
      have one : Carries host weather journal (Ours host (path :: rest))
          (Commit.rollbackOne crates transaction path) start _ :=
        (rollbackOne_carries (separate.valid path among) (separate.apart path among)
          (separate.outside path among) (housed path among)).within (ours_of_mem among)
      apply Carries.bind one
      · intro value here elsewhere ended
        have others := ih separate.tail fun other later =>
          (elsewhere.devices _).trans (housed other (List.mem_cons_of_mem _ later))
        refine (others.within fun slot inside => ?_).mono fun result finish _ last found same => ?_
        · obtain ⟨other, later, inside⟩ := inside
          exact ⟨other, List.mem_cons_of_mem _ later, inside⟩
        · intro other among
          rcases List.mem_cons.mp among with rfl | later
          · exact (ended.2 _ rfl).still last.1 own
          · exact last.2 found same other later
      · exact fun _ _ _ _ _ same => by cases same

/-! ### Clearing up -/

/-- The artifacts of the paths. -/
def Artifacts (host : Host) (paths : List StagedPath) (slot : Slot) : Prop :=
  ∃ path ∈ paths, ∃ name ∈ path.names, slot = path.access.artifact host name

theorem artifacts_ours {paths : List StagedPath} (slot : Slot)
    (inside : Artifacts host paths slot) : Ours host paths slot := by
  obtain ⟨path, among, name, named, rfl⟩ := inside
  exact ⟨path, among, artifact_mem host named⟩

/-- The target of a path is no artifact, and not the journal. -/
theorem Separate.target_kept {paths : List StagedPath} (separate : Separate host journal paths)
    (among : path ∈ paths) : ¬ Besides journal (Artifacts host paths) (path.access.slot host) := by
  rintro (same | ⟨other, one, name, named, same⟩)
  · exact separate.outside path among (same ▸ target_mem host path)
  · rcases separate.same_or_disjoint among one with rfl | disjoint
    · exact artifact_ne_target (separate.apart path among) named same.symm
    · exact disjoint (target_mem host path) (same ▸ artifact_mem host named)

/-- What is gone stays so while others are cleared. -/
theorem Elsewhere.stays_gone {own : Slot → Prop} {finish : World} {slot : Slot}
    (elsewhere : Elsewhere own start finish) (gone : start.look slot = none)
    (cleared : own slot → finish.look slot = none) : finish.look slot = none := by
  by_cases mine : own slot
  · exact cleared mine
  · exact (elsewhere.looks slot mine).trans gone

/-- The artifacts of the path that have these names. -/
def Named (host : Host) (path : StagedPath) (names : List String) (slot : Slot) : Prop :=
  ∃ name ∈ names, slot = path.access.artifact host name

theorem cleanupPath_achieves (index : Nat) (path : StagedPath) (names : List String)
    (valid : ∀ name ∈ names, validateArtifactName name = .ok ()) :
    Achieves host weather (Named host path names) (cleanupPath index path names) here
      fun _ finish => ∀ slot, Named host path names slot → finish.look slot = none := by
  induction names generalizing here with
  | nil => exact achieves_pure _ fun _ ⟨_, among, _⟩ => by cases among
  | cons name rest ih =>
      unfold cleanupPath
      have removed : Achieves host weather (Named host path (name :: rest))
          (orElse (path.access.removeArtifact name) (cleanupError path index)) here
          fun _ finish => finish.look (path.access.artifact host name) = none :=
        Achieves.adapt ((TargetAccess.removeArtifact_achieves
          (valid name List.mem_cons_self)).within fun _ same => ⟨name, List.mem_cons_self, same⟩)
      apply Achieves.bind removed
      intro _ second _ gone
      have others : Achieves host weather (Named host path (name :: rest))
          (cleanupPath index path rest) second fun _ finish =>
            ∀ slot, Named host path (name :: rest) slot → finish.look slot = none := by
        refine ((ih fun other later => valid other (List.mem_cons_of_mem _ later)).mono
          fun _ finish elsewhere cleared slot inside => ?_).within fun slot inside => ?_
        · obtain ⟨other, among, rfl⟩ := inside
          rcases List.mem_cons.mp among with rfl | later
          · exact elsewhere.stays_gone gone (cleared _)
          · exact cleared _ ⟨other, later, rfl⟩
        · obtain ⟨other, later, same⟩ := inside
          exact ⟨other, List.mem_cons_of_mem _ later, same⟩
      apply Achieves.bind others
      exact fun _ _ _ cleared => achieves_pure _ cleared

theorem cleanupFrom_achieves (index : Nat) (paths : List StagedPath)
    (valid : ∀ path ∈ paths, ∀ name ∈ path.names, validateArtifactName name = .ok ()) :
    Achieves host weather (Artifacts host paths) (cleanupFrom index paths) here fun _ finish =>
      ∀ slot, Artifacts host paths slot → finish.look slot = none := by
  induction paths generalizing index here with
  | nil => exact achieves_pure _ fun _ ⟨_, among, _⟩ => by cases among
  | cons path rest ih =>
      unfold cleanupFrom
      have first : Achieves host weather (Artifacts host (path :: rest))
          (cleanupPath index path (path.stageName.toList ++ path.backupName.toList)) here
          fun _ finish => ∀ slot, Named host path path.names slot → finish.look slot = none :=
        (cleanupPath_achieves index path _ (valid path List.mem_cons_self)).within
          fun slot inside => ⟨path, List.mem_cons_self, inside⟩
      apply Achieves.bind first
      intro _ second _ gone
      have others : Achieves host weather (Artifacts host (path :: rest))
          (cleanupFrom (index + 1) rest) second fun _ finish =>
            ∀ slot, Artifacts host (path :: rest) slot → finish.look slot = none := by
        refine ((ih (index + 1) fun other later => valid other (List.mem_cons_of_mem _ later)).mono
          fun _ finish elsewhere cleared slot inside => ?_).within fun slot inside => ?_
        · obtain ⟨other, among, named⟩ := inside
          rcases List.mem_cons.mp among with rfl | later
          · exact elsewhere.stays_gone (gone slot named) (cleared slot)
          · exact cleared slot ⟨other, later, named⟩
        · obtain ⟨other, later, named⟩ := inside
          exact ⟨other, List.mem_cons_of_mem _ later, named⟩
      apply Achieves.bind others
      exact fun _ _ _ cleared => achieves_pure _ cleared

theorem removeNamedJournal_achieves {control : ControlDir} {name : String} {file : Ino}
    (alone : Alone (host.slot control.dir name) file here) :
    Achieves host weather (· = host.slot control.dir name) (control.removeNamedJournal name) here
      fun _ finish => finish.look (host.slot control.dir name) = none ∨ weather.denies := by
  unfold ControlDir.removeNamedJournal attempt Achieves
  rw [Task.meets_except_bind, Task.meets_except_lift]
  refine ⟨trivial, fun answer finish stepped => ?_⟩
  obtain ⟨elsewhere, gone, missing⟩ := elsewhere_removeFile alone stepped
  cases answer with
  | ok value =>
      refine ⟨trivial, fun answer last synced => ?_⟩
      have same := (quiet_syncDir control.dir finish).2 answer last synced
      subst same
      exact ⟨elsewhere, fun _ _ => .inl (gone rfl)⟩
  | error error =>
      change Task.Meets _ _ (ExceptT.run
        (if error.kind = .notFound then pure () else throw error : Io Unit)) _ finish
      split
      · next kind => exact ⟨elsewhere, fun _ _ => missing error rfl kind⟩
      · exact ⟨elsewhere, fun _ impossible => by cases impossible⟩

theorem removeOperationJournal_achieves {control : ControlDir} {file : Ino}
    (alone : Alone (host.slot control.dir operationJournal) file here) :
    Achieves host weather (· = host.slot control.dir operationJournal)
      control.removeOperationJournal here fun _ finish =>
        finish.look (host.slot control.dir operationJournal) = none ∨ weather.denies := by
  have there : (here.look (host.slot control.dir operationJournal)).isSome = true := by
    obtain ⟨seen, shows, _⟩ := alone
    rw [shows]
    rfl
  have found : Achieves host weather (· = host.slot control.dir operationJournal)
      (control.openNamedJournal operationJournal) here fun current finish =>
        finish = here ∧ current.isSome = true :=
    (openNamedJournal_there there).mono fun result finish ended =>
      ⟨ended.1 ▸ Elsewhere.refl _ _, fun value same => ⟨ended.1, ended.2 value same⟩⟩
  unfold ControlDir.removeOperationJournal
  apply Achieves.bind found
  rintro current second _ ⟨rfl, some⟩
  have looked : Achieves host weather (· = host.slot control.dir operationJournal)
      (control.openNamedJournal legacyOperationJournal) second fun _ finish => finish = second :=
    achieves_of_yields (Task.Yields.mono (Reads.yields (ControlDir.openNamedJournal_reads _))
      fun _ _ => rfl)
  apply Achieves.bind looked
  rintro legacy third _ rfl
  rw [some]
  cases legacy with
  | none => exact removeNamedJournal_achieves alone
  | some other => exact achieves_throw _

/-- The artifacts are gone, and so is the journal, unless its removal denied that it was
there. -/
def Swept (host : Host) (weather : Weather) (journal : Slot) (paths : List StagedPath)
    (finish : World) : Prop :=
  (∀ slot, Artifacts host paths slot → finish.look slot = none) ∧
    (finish.look journal = none ∨ weather.denies)

theorem closing_concludes {paths : List StagedPath} (separate : Separate host journal paths)
    (place : host.slot transaction.control.dir operationJournal = journal) (record : Record)
    (wrap : JournalError → WorktreeError) (message : String) :
    Concludes host weather journal (Artifacts host paths) (do
        appendOr crates record wrap
        let _ ← beside (cleanup paths)
        beside (Commit.removeJournal transaction message) : Journaled Unit) start
      fun result finish => ∀ value, result = .ok value →
        Swept host weather journal paths finish := by
  have outside : ¬ Artifacts host paths journal :=
    fun inside => separate.not_ours (artifacts_ours journal inside)
  have nothing : ∀ {α β : Type} {error : α} {value : β} {claim : Prop},
      Except.error error = .ok value → claim := fun same => by cases same
  have appended : Carries host weather journal (Artifacts host paths)
      (appendOr crates record wrap) start fun _ _ => True :=
    carries_append record wrap (fun _ _ => trivial) fun _ _ _ => trivial
  apply Carries.conclude appended
  · intro _ second _ _
    apply Carries.conclude (carries_lift (cleanupFrom_achieves 0 paths separate.valid) outside)
    · intro _ third _ cleared
      apply concludes_lift
      intro file alone
      apply Achieves.adapt
      subst place
      refine (removeOperationJournal_achieves alone).mono fun _ finish elsewhere gone => ⟨?_, gone⟩
      intro slot inside
      have kept := elsewhere.looks slot fun same => outside (same ▸ inside)
      exact kept.trans (cleared _ rfl slot inside)
    · exact fun _ _ _ _ _ same => nothing same
  · exact fun _ _ _ _ _ same => nothing same

theorem closing_signals (paths : List StagedPath) (record : Record)
    {wrap : JournalError → WorktreeError} (flagged : ∀ error, (wrap error).Flagged)
    (message : String) :
    Task.Signals (do
        appendOr crates record wrap
        let _ ← beside (cleanup paths)
        beside (Commit.removeJournal transaction message) : Journaled Unit)
      WorktreeError.Flagged := by
  have removed : Task.Raises (Commit.removeJournal transaction message) WorktreeError.Flagged :=
    Task.raises_adapt fun _ => rfl
  refine Task.Signals.bind (Logbook.append_signals flagged) fun _ => ?_
  exact Task.Signals.bind (Logbook.cleanup_raises paths).signals fun _ => removed.signals

theorem rollbackChanged_signals (changed : List StagedPath) :
    Task.Signals (Commit.rollbackChanged crates transaction changed) WorktreeError.Flagged := by
  have round : ∀ path, Task.Signals (Commit.rollbackOne crates transaction path)
      WorktreeError.Flagged := by
    intro path
    have restored : Task.Raises (ExceptT.adapt (fun error : WorktreeError =>
        (error.inTransaction transaction.transactionId).requiringRecovery)
        (Commit.restore crates transaction path)) WorktreeError.Flagged :=
      Task.raises_adapt fun _ => rfl
    refine Task.Signals.bind (Logbook.append_signals fun _ => rfl) fun _ => ?_
    refine Task.Signals.bind restored.signals fun _ => ?_
    exact Logbook.append_signals fun _ => rfl
  refine Task.Signals.bind (Task.signals_forM fun path _ => round path) fun _ => ?_
  apply closing_signals
  exact fun _ => rfl

/-- What a completed rollback leaves: nothing of the transaction, the changed paths
restored and the others as they were. -/
structure RolledBack (crates : Crates T) (host : Host) (weather : Weather) (journal : Slot)
    (paths changed : List StagedPath) (start finish : World) : Prop where
  swept : Swept host weather journal paths finish
  restored : ∀ path ∈ changed, path.Restored crates host finish
  kept : ∀ path ∈ paths, path ∉ changed →
    finish.look (path.access.slot host) = start.look (path.access.slot host)

theorem rollbackChanged_concludes {changed : List StagedPath}
    (separate : Separate host journal transaction.paths)
    (place : host.slot transaction.control.dir operationJournal = journal)
    (within : changed.Sublist transaction.paths)
    (housed : ∀ path ∈ transaction.paths, path.access.Housed start) :
    Concludes host weather journal (Ours host transaction.paths)
      (Commit.rollbackChanged crates transaction changed) start (Outcome
        (fun _ finish =>
          RolledBack crates host weather journal transaction.paths changed start finish)
        fun error _ => error.Flagged) := by
  refine Concludes.signals ?_ (rollbackChanged_signals changed)
  have rounds : Carries host weather journal (Ours host transaction.paths)
      (changed.reverse.forM (Commit.rollbackOne crates transaction)) start _ :=
    (rollbackPaths_carries (separate.sublist within).reverse fun path among =>
      housed path (within.subset (List.mem_reverse.mp among))).within fun slot inside => by
        obtain ⟨path, among, inside⟩ := inside
        exact ⟨path, within.subset (List.mem_reverse.mp among), inside⟩
  unfold Commit.rollbackChanged
  apply Carries.conclude rounds
  · intro _ second _ ended
    obtain ⟨first, restored⟩ := ended
    refine ((closing_concludes separate place _ _ _).within artifacts_ours).mono
      fun result finish _ last value same => ?_
    obtain ⟨closing, swept⟩ := last
    have target : ∀ path ∈ transaction.paths,
        finish.look (path.access.slot host) = second.look (path.access.slot host) :=
      fun path among => closing.looks _ (separate.target_kept among)
    refine ⟨swept value same, fun path among => ?_, fun path among others => ?_⟩
    · have before := restored _ rfl path (List.mem_reverse.mpr among)
      unfold StagedPath.Restored StagedPath.Displays at before ⊢
      rw [target path (within.subset among)]
      exact before
    · refine (target path among).trans (first.looks _ ?_)
      rintro (same | ⟨other, listed, inside⟩)
      · exact separate.outside path among (same ▸ target_mem host path)
      · have later := List.mem_reverse.mp listed
        rcases separate.same_or_disjoint among (within.subset later) with rfl | disjoint
        · exact others later
        · exact disjoint (target_mem host path) inside
  · exact fun _ _ _ _ _ same => by cases same

/-! ### The whole commit -/

/-- Every path has its after state, and nothing of the transaction is left. -/
structure Applied (crates : Crates T) (host : Host) (weather : Weather) (journal : Slot)
    (paths : List StagedPath) (finish : World) : Prop where
  swept : Swept host weather journal paths finish
  changed : ∀ path ∈ paths, path.Changed crates host finish

/-- The target shows what it did, or again its before state, if need be as its backup. -/
def Unharmed (crates : Crates T) (host : Host) (path : StagedPath) (start finish : World) : Prop :=
  finish.look (path.access.slot host) = start.look (path.access.slot host) ∨
    path.Displays crates host start path.before ∧
      (path.Displays crates host finish path.before ∨ path.Restored crates host finish)

/-- No path is harmed, and nothing of the transaction is left. -/
structure Withdrawn (crates : Crates T) (host : Host) (weather : Weather) (journal : Slot)
    (paths : List StagedPath) (start finish : World) : Prop where
  swept : Swept host weather journal paths finish
  unharmed : ∀ path ∈ paths, Unharmed crates host path start finish

theorem flagged_not_plain {error : WorktreeError} {claim : Prop} (flagged : error.Flagged)
    (plain : error.Plain) : claim := by
  rw [WorktreeError.Flagged, plain] at flagged
  cases flagged

theorem lifted_concludes {ε α β : Type} {own : Slot → Prop}
    {program : ExceptT ε (StateT Writer (Task FsOp)) α} {next : Except ε α → Journaled β}
    {post : Except WorktreeError β → World → Prop} {middle : Except ε α → World → Prop}
    (carries : Carries host weather journal own program start middle)
    (rest : ∀ found here, Elsewhere (Besides journal own) start here → middle found here →
      Concludes host weather journal own (next found) here post) :
    Concludes host weather journal own (ExceptT.lift program.run >>= next) start post := by
  have attempted : Carries host weather journal own (ExceptT.lift program.run :
      Journaled (Except ε α)) start fun result finish =>
        ∃ found, result = .ok found ∧ middle found finish :=
    carries_attempt (carries.mono fun found _ _ holds => ⟨found, rfl, holds⟩)
  apply Carries.conclude attempted
  · rintro found here elsewhere ⟨_, same, holds⟩
    cases same
    exact rest found here elsewhere holds
  · rintro error here _ ⟨_, same, _⟩
    cases same

theorem commitPaths_all (separate : Separate host journal transaction.paths)
    (poised : ∀ path ∈ transaction.paths, path.Poised crates host start) :
    Carries host weather journal (Ours host transaction.paths)
      (Commit.commitPaths crates transaction [] transaction.paths.zipIdx) start
      (Stopped crates host [] transaction.paths start) := by
  have listed : transaction.paths.zipIdx.map Prod.fst = transaction.paths :=
    List.zipIdx_map_fst 0 transaction.paths
  have carries : Carries host weather journal _ (Commit.commitPaths crates transaction []
      transaction.paths.zipIdx) start _ :=
    commitPaths_carries [] transaction.paths.zipIdx (by rw [listed]; exact separate)
      (by rw [listed]; exact poised)
  rwa [listed] at carries

/-- What follows the verification. -/
theorem commitVerified_concludes (separate : Separate host journal transaction.paths)
    (place : host.slot transaction.control.dir operationJournal = journal)
    (poised : ∀ path ∈ transaction.paths, path.Poised crates host start) :
    Concludes host weather journal (Ours host transaction.paths) (do
        Commit.commitAll crates transaction (pure ())
        Commit.appendFinishedCommit crates
        let _ ← beside (cleanup transaction.paths)
        beside (Commit.removeJournal transaction
          "operation commit succeeded but journal cleanup failed")
        return Commit.applyReport transaction : Journaled WorktreeApplyReport) start
      (Outcome
        (fun report finish => report = Commit.applyReport transaction ∧
          Applied crates host weather journal transaction.paths finish)
        fun error finish => error.Plain →
          Withdrawn crates host weather journal transaction.paths start finish) := by
  unfold Commit.commitAll
  rw [bind_assoc]
  apply lifted_concludes (commitPaths_all separate poised)
  intro found second elsewhere stopped
  cases found with
  | ok value =>
      have closing : Concludes host weather journal (Ours host transaction.paths) (do
          Commit.appendFinishedCommit crates
          let _ ← beside (cleanup transaction.paths)
          beside (Commit.removeJournal transaction
            "operation commit succeeded but journal cleanup failed") : Journaled Unit) second
          (Outcome (fun _ finish => Applied crates host weather journal transaction.paths finish)
            fun error _ => error.Flagged) := by
        apply Concludes.signals
        · refine ((closing_concludes separate place _ _ _).within artifacts_ours).mono
            fun result finish _ last value same => ⟨last.2 value same, fun path among => ?_⟩
          unfold StagedPath.Changed
          rw [last.1.looks _ (separate.target_kept among)]
          exact stopped path among
        · apply closing_signals
          exact fun _ => rfl
      have shape : (do
          (pure () : Journaled Unit)
          Commit.appendFinishedCommit crates
          let _ ← beside (cleanup transaction.paths)
          beside (Commit.removeJournal transaction
            "operation commit succeeded but journal cleanup failed")
          return Commit.applyReport transaction : Journaled WorktreeApplyReport) = (do
          Commit.appendFinishedCommit crates
          let _ ← beside (cleanup transaction.paths)
          beside (Commit.removeJournal transaction
            "operation commit succeeded but journal cleanup failed") : Journaled Unit) >>=
            fun _ => pure (Commit.applyReport transaction) := by
        simp only [bind_assoc]
      change Concludes _ _ _ _ (do (pure () : Journaled Unit); _) _ _
      rw [shape]
      refine Concludes.bind (closing.mono fun result finish _ ended => ?_)
      cases result with
      | ok value => exact ⟨rfl, ended⟩
      | error error => exact flagged_not_plain ended
  | error failure =>
      cases failure with
      | ambiguous error =>
          have asks : (error.inTransaction transaction.transactionId).requiringRecovery.Flagged :=
            rfl
          apply Carries.concludes
          exact carries_throw _ (flagged_not_plain asks)
      | changed error changed =>
          obtain ⟨taken, rfl, within, spared⟩ := stopped
          have rolled : Concludes host weather journal (Ours host transaction.paths)
              (Commit.rollbackChanged crates transaction changed) second _ :=
            rollbackChanged_concludes separate place within fun path among =>
              (elsewhere.devices _).trans (poised path among).housed
          apply Concludes.stop
          change Concludes _ _ _ _ (do
            Commit.rollbackChanged crates transaction changed
            throw (error.inTransaction transaction.transactionId) : Journaled Unit) _ _
          refine Concludes.bind (rolled.mono fun result finish _ ended => ?_)
          cases result with
          | error failed => exact ⟨failed, rfl, flagged_not_plain ended⟩
          | ok value =>
              obtain ⟨swept, restored, kept⟩ := ended
              refine ⟨_, rfl, fun _ => ⟨swept, fun path among => ?_⟩⟩
              have before : path.Displays crates host start path.before :=
                (poised path among).before
              by_cases taken : path ∈ changed
              · exact .inr ⟨before, .inr (restored path taken)⟩
              · have still := kept path among taken
                rcases (spared path among).resolve_left taken with same | shows
                · exact .inl (still.trans same)
                · refine .inr ⟨before, .inl ?_⟩
                  unfold StagedPath.Displays at shows ⊢
                  rw [still]
                  exact shows

theorem commitJournaled_concludes (separate : Separate host journal transaction.paths)
    (place : host.slot transaction.control.dir operationJournal = journal) :
    Concludes host weather journal (Ours host transaction.paths)
      (Commit.commitJournaled crates transaction) start
      (Outcome
        (fun report finish => report = Commit.applyReport transaction ∧
          (∀ path ∈ transaction.paths, path.Displays crates host start path.before) ∧
          Applied crates host weather journal transaction.paths finish)
        fun error finish => error.Plain →
          Withdrawn crates host weather journal transaction.paths start finish) := by
  have looked : Achieves host weather (fun _ => False) (Commit.verifyAll crates transaction) start
      fun _ _ => ∀ path ∈ transaction.paths, path.Poised crates host start :=
    achieves_of_yields verifyAll_yields
  have checked : Carries host weather journal (Ours host transaction.paths)
      (beside (Commit.verifyAll crates transaction)) start _ :=
    (carries_lift looked id).within fun _ => False.elim
  have same : ∀ {finish}, Elsewhere (Besides journal fun _ => False) start finish →
      ∀ path ∈ transaction.paths,
        finish.look (path.access.slot host) = start.look (path.access.slot host) :=
    fun elsewhere path among => elsewhere.looks _
      (not_besides (separate.outside path among) _ (target_mem host path))
  unfold Commit.commitJournaled Commit.verified
  rw [bind_assoc]
  apply lifted_concludes checked
  intro found second _ ended
  obtain ⟨untouched, poised⟩ := ended
  cases found with
  | ok value =>
      have all := poised value rfl
      have here : ∀ path ∈ transaction.paths, path.Poised crates host second :=
        fun path among => (all path among).still untouched
          (not_besides (separate.outside path among))
      refine (commitVerified_concludes separate place here).mono fun result finish _ ended => ?_
      cases result with
      | ok report => exact ⟨ended.1, fun path among => (all path among).before, ended.2⟩
      | error error =>
          intro plain
          obtain ⟨swept, unharmed⟩ := ended plain
          refine ⟨swept, fun path among => ?_⟩
          exact (unharmed path among).imp (fun still => still.trans (same untouched path among))
            fun shown => ⟨(all path among).before, shown.2⟩
  | error error =>
      have given : Concludes host weather journal (Ours host transaction.paths)
          (Commit.finishWithoutChanges crates transaction) second
          (Outcome
            (fun _ finish =>
              Withdrawn crates host weather journal transaction.paths start finish)
            fun error _ => error.Flagged) := by
        apply Concludes.signals
        · refine ((closing_concludes separate place _ _ _).within artifacts_ours).mono
            fun result finish _ last value ok => ⟨last.2 value ok, fun path among => .inl ?_⟩
          have kept := last.1.looks _ (separate.target_kept among)
          exact kept.trans (same untouched path among)
        · apply closing_signals
          exact fun _ => rfl
      apply Concludes.stop
      refine Concludes.bind (given.mono fun result finish _ ended => ?_)
      cases result with
      | ok value => exact ⟨_, rfl, fun _ => ended⟩
      | error failed => exact ⟨failed, rfl, fun plain => flagged_not_plain ended plain⟩

/-- What becomes of the paths in a commit, whatever fails. -/
theorem commit_meets (separate : Separate host journal transaction.paths)
    (place : host.slot transaction.control.dir operationJournal = journal)
    (alone : Alone journal transaction.journal.file start) :
    (transaction.commit crates).run.Meets (fsMachine host weather) (fun _ _ => True)
      (fun result finish => Elsewhere (Besides journal (Ours host transaction.paths)) start finish ∧
        Outcome
          (fun report finish => report = Commit.applyReport transaction ∧
            (∀ path ∈ transaction.paths, path.Displays crates host start path.before) ∧
            Applied crates host weather journal transaction.paths finish)
          (fun error finish => error.Plain →
            Withdrawn crates host weather journal transaction.paths start finish)
          result finish) start := by
  apply Undo.holding_meets
  rw [ExceptT.run_mk, Task.meets_bind]
  refine (commitJournaled_concludes separate place transaction.journal alone).mono
    fun result middle ended => ⟨trivial, ⟨ended.1.looks, ended.1.devices⟩, ?_⟩
  obtain ⟨result, writer⟩ := result
  obtain ⟨_, ended⟩ := ended
  cases result with
  | ok report => exact ⟨ended.1, ended.2.1, ended.2.2.swept, ended.2.2.changed⟩
  | error error => exact fun plain => ⟨(ended plain).swept, (ended plain).unharmed⟩

/-- Whatever fails while the paths are changed: a commit that ends well has given every
path its after state, one that fails without asking for a recovery has harmed none, and
either way nothing of the transaction is left. -/
theorem commit_applies_or_withdraws {result : Except WorktreeError WorktreeApplyReport}
    {finish : World} (separate : Separate host journal transaction.paths)
    (place : host.slot transaction.control.dir operationJournal = journal)
    (alone : Alone journal transaction.journal.file start)
    (returned : (transaction.commit crates).run.Returns (fsMachine host weather) start result
      finish) :
    Elsewhere (Besides journal (Ours host transaction.paths)) start finish ∧
      match result with
      | .ok report => report = Commit.applyReport transaction ∧
          (∀ path ∈ transaction.paths, path.Displays crates host start path.before) ∧
          Applied crates host weather journal transaction.paths finish
      | .error error => error.recoveryRequired = false →
          Withdrawn crates host weather journal transaction.paths start finish := by
  have ended := (commit_meets separate place alone).returns returned
  cases result with
  | ok report => exact ended
  | error error => exact ended

end

end

end

/-! ### One file created -/

section Creation

private def created : Except WorktreeError WorktreeApplyReport × World :=
  (creation.commit plainCrates).run.run (fsKernel .plain) creationWorld

theorem commit_applies_or_withdraws_creation :
    ∃ report, created.1 = .ok report ∧
      Elsewhere (Besides ⟨2, operationJournal⟩ (Ours .plain creation.paths)) creationWorld
        created.2 ∧
      report = Commit.applyReport creation ∧
      Applied plainCrates .plain .calm ⟨2, operationJournal⟩ creation.paths created.2 := by
  have separate : Separate .plain ⟨2, operationJournal⟩ creation.paths := by
    refine ⟨?_, ?_, ?_, List.pairwise_singleton _ _⟩
    · intro path among name named
      cases List.mem_singleton.mp among
      cases List.mem_singleton.mp named
      decide +kernel
    · intro path among
      cases List.mem_singleton.mp among
      decide +kernel
    · intro path among
      cases List.mem_singleton.mp among
      decide +kernel
  have alone : Alone ⟨2, operationJournal⟩ creation.journal.file creationWorld := by
    obtain ⟨seen, shows, reserved, ino, _⟩ := creation_prepared.journal.stores
    exact ⟨seen, shows, ino, reserved.single⟩
  have returned : (creation.commit plainCrates).run.Returns (fsMachine .plain .calm)
      creationWorld created.1 created.2 := returns_run trivial _ creationWorld
  have well : created.1.isOk = true := by decide +kernel
  cases ended : created.1 with
  | error error =>
      rw [ended] at well
      cases well
  | ok report =>
      rw [ended] at returned
      obtain ⟨elsewhere, same, _, applied⟩ :=
        commit_applies_or_withdraws separate rfl alone returned
      exact ⟨report, rfl, elsewhere, same, applied⟩

end Creation

end Worktree
