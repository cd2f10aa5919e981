import Worktree.Operation.Replay
import Worktree.Filesystem.Bypassing
/-
What a replayed journal says about its records.

The sets of a replay are exactly the records of each kind, the paths stand in
the order of their indices, and what the later phases need was checked before.
-/

namespace Worktree

open CrashLogic

namespace Replay

variable {T : Type} {crates : Crates T} {α β : Type}

/-! ### Checks -/

theorem require_ok_iff {condition : Bool} {message : String} {value : Unit} :
    require condition message = .ok value ↔ condition = true := by
  unfold require
  cases condition <;> simp

theorem requirePhase_ok_iff {actual expected : ReplayPhase} {record : String} {value : Unit} :
    requirePhase actual expected record = .ok value ↔ actual = expected := by
  unfold requirePhase
  split <;> simp_all

/-! ### One record -/

variable {replay after : Replay} {index : Nat}

theorem commitIntent_ok_iff : replay.commitIntent index = .ok after ↔
    (replay.phase = .prepared ∨ replay.phase = .commit) ∧ index < replay.paths.length ∧
      (∀ previous, replay.lastCommitIntent = some previous →
        previous ∈ replay.committed ∧ previous < index) ∧
      index ∉ replay.commitIntents ∧
      { replay with
        commitIntents := insert index replay.commitIntents
        lastCommitIntent := some index
        phase := .commit } = after := by
  unfold commitIntent validatePathIndex
  simp only [bind_ok_iff, require_ok_iff, pure, Except.pure, Except.ok.injEq, exists_and_left,
    exists_const, Bool.or_eq_true, Bool.and_eq_true, decide_eq_true_eq, Option.all_eq_true]
  constructor
  · rintro ⟨phase, bound, ⟨⟨done, fresh⟩, later⟩, same⟩
    exact ⟨phase, bound, fun previous last => ⟨done previous last, later previous last⟩, fresh, same⟩
  · rintro ⟨phase, bound, last, fresh, same⟩
    exact ⟨phase, bound, ⟨⟨fun previous found => (last previous found).1, fresh⟩,
      fun previous found => (last previous found).2⟩, same⟩

theorem applyCommitted_ok_iff : replay.applyCommitted index = .ok after ↔
    replay.phase = .commit ∧ index ∈ replay.commitIntents ∧ index ∉ replay.committed ∧
      replay.lastCommitIntent = some index ∧
      { replay with committed := insert index replay.committed } = after := by
  unfold applyCommitted
  simp only [bind_ok_iff, require_ok_iff, requirePhase_ok_iff, pure, Except.pure, Except.ok.injEq,
    exists_and_left, exists_const, Bool.and_eq_true, decide_eq_true_eq]
  constructor
  · rintro ⟨phase, ⟨⟨announced, fresh⟩, last⟩, same⟩
    exact ⟨phase, announced, fresh, last, same⟩
  · rintro ⟨phase, announced, fresh, last, same⟩
    exact ⟨phase, ⟨⟨announced, fresh⟩, last⟩, same⟩

theorem rollbackIntent_ok_iff : replay.rollbackIntent index = .ok after ↔
    (replay.phase = .commit ∨ replay.phase = .rollback) ∧ index ∈ replay.commitIntents ∧
      (∀ previous, replay.lastRollbackIntent = some previous →
        previous ∈ replay.rolledBack ∧ index < previous) ∧
      index ∉ replay.rollbackIntents ∧
      { replay with
        rollbackIntents := insert index replay.rollbackIntents
        lastRollbackIntent := some index
        phase := .rollback } = after := by
  unfold rollbackIntent
  simp only [bind_ok_iff, require_ok_iff, pure, Except.pure, Except.ok.injEq, exists_and_left,
    exists_const, Bool.or_eq_true, Bool.and_eq_true, decide_eq_true_eq, Option.all_eq_true]
  constructor
  · rintro ⟨⟨⟨⟨⟨phase, announced⟩, done⟩, fresh⟩, earlier⟩, same⟩
    exact ⟨phase, announced, fun previous last => ⟨done previous last, earlier previous last⟩,
      fresh, same⟩
  · rintro ⟨phase, announced, last, fresh, same⟩
    exact ⟨⟨⟨⟨⟨phase, announced⟩, fun previous found => (last previous found).1⟩, fresh⟩,
      fun previous found => (last previous found).2⟩, same⟩

theorem applyRolledBack_ok_iff : replay.applyRolledBack index = .ok after ↔
    replay.phase = .rollback ∧ index ∈ replay.rollbackIntents ∧ index ∉ replay.rolledBack ∧
      replay.lastRollbackIntent = some index ∧
      { replay with rolledBack := insert index replay.rolledBack } = after := by
  unfold applyRolledBack
  simp only [bind_ok_iff, require_ok_iff, requirePhase_ok_iff, pure, Except.pure, Except.ok.injEq,
    exists_and_left, exists_const, Bool.and_eq_true, decide_eq_true_eq]
  constructor
  · rintro ⟨phase, ⟨⟨announced, fresh⟩, last⟩, same⟩
    exact ⟨phase, announced, fresh, last, same⟩
  · rintro ⟨phase, announced, fresh, last, same⟩
    exact ⟨phase, ⟨⟨announced, fresh⟩, last⟩, same⟩

/-- Whether the records so far bear this outcome. -/
def Bears (replay : Replay) : FinishOutcome → Prop
  | .committed => replay.prepared = true ∧ replay.committed.card = replay.paths.length ∧
      replay.commitIntents = replay.committed
  | .aborted => replay.commitIntents = ∅
  | .rolledBack => replay.prepared = true ∧ replay.commitIntents ≠ ∅

theorem applyFinished_ok_iff {outcome : FinishOutcome} : replay.applyFinished outcome = .ok after ↔
    replay.Bears outcome ∧ { replay with finished := some outcome, phase := .finished } =
      after := by
  unfold applyFinished validateFinished
  simp only [bind_ok_iff, require_ok_iff, pure, Except.pure, Except.ok.injEq, exists_and_left,
    exists_const]
  refine and_congr ?_ Iff.rfl
  cases outcome with
  | committed => simp [Bears, and_assoc]
  | rolledBack => simp [Bears]
  | aborted => simp [Bears]

theorem registerSource_ok {source oldSha256 : Option String} {bytes : Nat}
    (registered : registerSource crates replay source oldSha256 bytes = .ok after) :
    ∃ expectedPaths inputs, after = { replay with expectedPaths, inputs } := by
  unfold registerSource at registered
  split at registered
  · obtain ⟨found, _, same⟩ := bind_ok_iff.mp registered
    cases same
    exact ⟨found.1, found.2, rfl⟩
  · cases registered
    exact ⟨_, _, rfl⟩

theorem registerOutput_ok {destination newSha256 : Option String} {bytes : Nat}
    (registered : registerOutput crates replay destination newSha256 bytes = .ok after) :
    ∃ expectedPaths outputs, after = { replay with expectedPaths, outputs } := by
  unfold registerOutput at registered
  split at registered
  · obtain ⟨found, _, same⟩ := bind_ok_iff.mp registered
    cases same
    exact ⟨found.1, found.2, rfl⟩
  · cases registered
    exact ⟨_, _, rfl⟩

/-- An operation only adds to the ends of operations. -/
theorem applyOperation_ok {kind : String} {source destination oldSha256 newSha256 : Option String}
    {bytesBefore bytesAfter editCount : Nat}
    (applied : applyOperation crates replay index kind source destination oldSha256 newSha256
      bytesBefore bytesAfter editCount = .ok after) :
    replay.phase = .operations ∧ ∃ expectedPaths inputs outputs,
      after = { replay with
        operationCount := replay.operationCount + 1
        expectedPaths
        inputs
        outputs } := by
  unfold applyOperation at applied
  simp only [bind_ok_iff, requirePhase_ok_iff, require_ok_iff, exists_and_left, exists_const]
    at applied
  obtain ⟨phase, _, registered, validated, same⟩ := applied
  unfold validateOperation at validated
  simp only [bind_ok_iff, require_ok_iff, exists_and_left, exists_const] at validated
  obtain ⟨_, _, _, middle, source, output⟩ := validated
  obtain ⟨expectedPaths, inputs, rfl⟩ := registerSource_ok source
  obtain ⟨expectedPaths', outputs, rfl⟩ := registerOutput_ok output
  cases same
  exact ⟨phase, expectedPaths', inputs, outputs, rfl⟩

theorem enterPaths_ok (entered : replay.enterPaths = .ok after) (phase : after.phase = .paths) :
    (replay.phase = .operations ∨ replay.phase = .paths) ∧
      after = { replay with phase := .paths } := by
  unfold enterPaths at entered
  split at entered
  · next operations =>
      obtain ⟨_, _, same⟩ := bind_ok_iff.mp entered
      cases same
      exact ⟨.inl operations, rfl⟩
  · cases entered
    exact ⟨.inr phase, by rw [← phase]⟩

/-- What a path intent was checked for. -/
structure Intends (replay : Replay) (index : Nat) (path : String) (before after : StateRecord)
    (stageName backupName : Option String) (before' after' : StateSpec) : Prop where
  phase : replay.phase = .operations ∨ replay.phase = .paths
  placed : index = replay.paths.length
  bound : index < replay.expectedPathCount
  parsedBefore : parseState before replay.options true = .ok before'
  parsedAfter : parseState after replay.options false = .ok after'
  artifacts : validateArtifactContract replay.transactionId index before' after' stageName
    backupName = .ok ()

theorem checkIntent_ok {path : String} {before after : StateRecord}
    {stageName backupName : Option String} {found : Replay × StateSpec × StateSpec}
    (checked : checkIntent crates replay index path before after stageName backupName = .ok found) :
    Intends replay index path before after stageName backupName found.2.1 found.2.2 ∧
      ∃ pathKeys, found.1 = { replay with phase := .paths, pathKeys } := by
  unfold checkIntent at checked
  simp only [bind_ok_iff, require_ok_iff, requirePhase_ok_iff, exists_and_left, exists_const]
    at checked
  obtain ⟨entered, entering, phase, placed, _, _, _, _, before', parsedBefore, after', parsedAfter,
    _, _, _, artifacts, same⟩ := checked
  obtain ⟨earlier, rfl⟩ := enterPaths_ok entering phase
  cases same
  simp only [Bool.and_eq_true, decide_eq_true_eq] at placed
  exact ⟨⟨earlier, placed.1, placed.2, parsedBefore, parsedAfter, artifacts⟩,
    insert (crates.portablePathKey path) replay.pathKeys, rfl⟩

theorem enterStaged_ok (entered : replay.enterStaged = .ok after) (phase : after.phase = .staged) :
    (replay.phase = .paths ∨ replay.phase = .staged) ∧
      after = { replay with phase := .staged } := by
  unfold enterStaged at entered
  split at entered
  · next paths =>
      obtain ⟨_, _, same⟩ := bind_ok_iff.mp entered
      cases same
      exact ⟨.inl paths, rfl⟩
  · cases entered
    exact ⟨.inr phase, by rw [← phase]⟩

/-- Both identities are there exactly where the path is present. -/
structure Stages (path : RecoveryPath) (stageIdentity backupIdentity : Option FileIdentity) :
    Prop where
  stage : stageIdentity.isSome = path.after.isPresent
  backup : backupIdentity.isSome = path.before.isPresent
  journaled : ∀ spec identity, path.after = .present spec → spec.identity = some identity →
    stageIdentity = some identity

theorem validateStagedIdentity_ok_iff {path : RecoveryPath}
    {stageIdentity backupIdentity : Option FileIdentity} {value : Unit} :
    validateStagedIdentity path stageIdentity backupIdentity = .ok value ↔
      Stages path stageIdentity backupIdentity := by
  unfold validateStagedIdentity
  rw [require_ok_iff]
  simp only [Bool.and_eq_true, decide_eq_true_eq, Option.all_eq_true, and_assoc]
  constructor
  · rintro ⟨stage, backup, journaled⟩
    refine ⟨stage, backup, fun spec identity after known => ?_⟩
    exact (journaled identity (by rw [after]; exact known)).symm
  · intro stages
    refine ⟨stages.stage, stages.backup, fun identity known => ?_⟩
    cases after : path.after with
    | absent =>
        rw [after] at known
        cases known
    | present spec =>
        rw [after] at known
        exact (stages.journaled spec identity after known).symm

theorem pathStaged_ok {stageIdentity backupIdentity : Option FileIdentity}
    (staged : replay.pathStaged index stageIdentity backupIdentity = .ok after) :
    (replay.phase = .paths ∨ replay.phase = .staged) ∧
      ∃ path, replay.paths[replay.stagedCount]? = some path ∧ path.index = index ∧
        path.staged = false ∧ Stages path stageIdentity backupIdentity ∧
        after = { replay with
          phase := .staged
          paths := replay.paths.set replay.stagedCount
            { path with stageIdentity, backupIdentity, staged := true }
          stagedCount := replay.stagedCount + 1 } := by
  unfold pathStaged at staged
  simp only [bind_ok_iff, requirePhase_ok_iff, exists_and_left, exists_const] at staged
  obtain ⟨entered, entering, phase, found⟩ := staged
  obtain ⟨earlier, rfl⟩ := enterStaged_ok entering phase
  split at found
  · cases found
  · next path among =>
      simp only [bind_ok_iff, require_ok_iff, validateStagedIdentity_ok_iff, exists_and_left,
        exists_const, Bool.and_eq_true, decide_eq_true_eq, Bool.not_eq_true'] at found
      obtain ⟨⟨placed, fresh⟩, stages, same⟩ := found
      cases same
      exact ⟨earlier, path, among, placed, fresh, stages, rfl⟩

theorem applyPrepared_ok {operationCount pathCount : Nat}
    (applied : applyPrepared crates replay operationCount pathCount = .ok after) :
    replay.phase = .staged ∧ replay.stagedCount = replay.paths.length ∧
      pathCount = replay.paths.length ∧
      after = { replay with prepared := true, phase := .prepared } := by
  unfold applyPrepared at applied
  simp only [bind_ok_iff, requirePhase_ok_iff, require_ok_iff, exists_and_left, exists_const,
    Bool.and_eq_true, decide_eq_true_eq] at applied
  obtain ⟨phase, ⟨⟨⟨⟨_, declared⟩, _⟩, counted⟩, staged⟩, _, _, same⟩ := applied
  cases same
  exact ⟨phase, staged, declared.trans counted, rfl⟩

/-! ### The records so far -/

/-- What the replay has of the records it took. -/
structure Counts (past : List Record) (replay : Replay) : Prop where
  announced : ∀ index, index ∈ replay.commitIntents ↔ .commitIntent index ∈ past
  completed : ∀ index, index ∈ replay.committed ↔ .committed index ∈ past
  reversing : ∀ index, index ∈ replay.rollbackIntents ↔ .rollbackIntent index ∈ past
  reversed : ∀ index, index ∈ replay.rolledBack ↔ .rolledBack index ∈ past
  outcomes : ∀ outcome, replay.finished = some outcome ↔ .finished outcome ∈ past

/-- Paths are still announced or staged. -/
def Preparing (phase : ReplayPhase) : Prop :=
  phase = .operations ∨ phase = .paths ∨ phase = .staged

/-- Paths are ready, announced, changed or restored. -/
def Active (phase : ReplayPhase) : Prop :=
  phase = .prepared ∨ phase = .commit ∨ phase = .rollback

/-- What the checks keep true of every replay. -/
structure Orderly (replay : Replay) : Prop where
  ended : replay.phase = .finished ↔ replay.finished.isSome = true
  placed : ∀ (index : Nat) (path : RecoveryPath), replay.paths[index]? = some path →
    path.index = index
  announcing : replay.rollbackIntents ⊆ replay.commitIntents
  reversal : replay.rolledBack ⊆ replay.rollbackIntents
  bounded : ∀ index ∈ replay.commitIntents, index < replay.paths.length
  early : Preparing replay.phase → replay.prepared = false ∧ replay.commitIntents = ∅
  waiting : replay.phase = .operations ∨ replay.phase = .paths → replay.stagedCount = 0
  active : Active replay.phase → replay.prepared = true
  ready : replay.commitIntents ≠ ∅ → replay.prepared = true
  counted : replay.prepared = true → replay.stagedCount = replay.paths.length
  staged : ∀ (index : Nat) (path : RecoveryPath), replay.paths[index]? = some path →
    index < replay.stagedCount → path.staged = true ∧
      Stages path path.stageIdentity path.backupIdentity

/-- Staged identities and the number of the paths were journaled. -/
structure Sourced (past : List Record) (replay : Replay) : Prop where
  identified : ∀ path ∈ replay.paths, ∀ identity, path.stageIdentity = some identity →
    ∃ index backup, .pathStaged index (some identity) backup ∈ past
  covered : replay.prepared = true →
    ∃ operationCount, .prepared operationCount replay.paths.length ∈ past

structure Replays (past : List Record) (replay : Replay) : Prop where
  counts : Counts past replay
  orderly : Orderly replay
  sourced : Sourced past replay

variable {past : List Record} {record : Record}

theorem Sourced.snoc (sourced : Sourced past replay) (paths : after.paths = replay.paths)
    (prepared : after.prepared = replay.prepared) : Sourced (past ++ [record]) after := by
  refine ⟨fun path among identity known => ?_, fun ready => ?_⟩
  · rw [paths] at among
    obtain ⟨index, backup, found⟩ := sourced.identified path among identity known
    exact ⟨index, backup, List.mem_append_left _ found⟩
  · rw [prepared] at ready
    obtain ⟨operationCount, found⟩ := sourced.covered ready
    exact ⟨operationCount, List.mem_append_left _ (by rw [paths]; exact found)⟩

theorem Orderly.ne_finished (orderly : Orderly replay) (open' : replay.phase ≠ .finished) :
    replay.finished = none := by
  cases finished : replay.finished with
  | none => rfl
  | some outcome =>
      have ended := orderly.ended.mpr (by rw [finished]; rfl)
      exact absurd ended open'

theorem commitIntent_replays (replays : Replays past replay)
    (applied : replay.commitIntent index = .ok after) :
    Replays (past ++ [.commitIntent index]) after := by
  obtain ⟨counts, orderly, sourced⟩ := replays
  obtain ⟨phase, bound, last, fresh, rfl⟩ := commitIntent_ok_iff.mp applied
  have active : replay.prepared = true :=
    orderly.active (phase.imp id .inl)
  refine ⟨⟨?_, ?_, ?_, ?_, ?_⟩, ?_, sourced.snoc rfl rfl⟩
  · simp [counts.announced, or_comm]
  · simp [counts.completed]
  · simp [counts.reversing]
  · simp [counts.reversed]
  · simp [counts.outcomes]
  · exact {
      orderly with
      ended := by
        have open' : replay.phase ≠ .finished := by rcases phase with same | same <;> simp [same]
        simp [orderly.ne_finished open']
      announcing := orderly.announcing.trans (Finset.subset_insert _ _)
      bounded := by
        intro other among
        rcases Finset.mem_insert.mp among with rfl | earlier
        · exact bound
        · exact orderly.bounded other earlier
      early := by simp [Preparing]
      waiting := by simp
      active := fun _ => active
      ready := fun _ => active }

theorem applyCommitted_replays (replays : Replays past replay)
    (applied : replay.applyCommitted index = .ok after) :
    Replays (past ++ [.committed index]) after := by
  obtain ⟨counts, orderly, sourced⟩ := replays
  obtain ⟨phase, announced, fresh, last, rfl⟩ := applyCommitted_ok_iff.mp applied
  refine ⟨⟨?_, ?_, ?_, ?_, ?_⟩, { orderly with }, sourced.snoc rfl rfl⟩
  · simp [counts.announced]
  · simp [counts.completed, or_comm]
  · simp [counts.reversing]
  · simp [counts.reversed]
  · simp [counts.outcomes]

theorem rollbackIntent_replays (replays : Replays past replay)
    (applied : replay.rollbackIntent index = .ok after) :
    Replays (past ++ [.rollbackIntent index]) after := by
  obtain ⟨counts, orderly, sourced⟩ := replays
  obtain ⟨phase, announced, last, fresh, rfl⟩ := rollbackIntent_ok_iff.mp applied
  refine ⟨⟨?_, ?_, ?_, ?_, ?_⟩, ?_, sourced.snoc rfl rfl⟩
  · simp [counts.announced]
  · simp [counts.completed]
  · simp [counts.reversing, or_comm]
  · simp [counts.reversed]
  · simp [counts.outcomes]
  · exact {
      orderly with
      ended := by
        have open' : replay.phase ≠ .finished := by rcases phase with same | same <;> simp [same]
        simp [orderly.ne_finished open']
      announcing := by
        intro other among
        rcases Finset.mem_insert.mp among with rfl | earlier
        · exact announced
        · exact orderly.announcing earlier
      reversal := orderly.reversal.trans (Finset.subset_insert _ _)
      early := by simp [Preparing]
      waiting := by simp
      active := fun _ => orderly.active (by
        rcases phase with same | same
        · exact .inr (.inl same)
        · exact .inr (.inr same)) }

theorem applyRolledBack_replays (replays : Replays past replay)
    (applied : replay.applyRolledBack index = .ok after) :
    Replays (past ++ [.rolledBack index]) after := by
  obtain ⟨counts, orderly, sourced⟩ := replays
  obtain ⟨phase, announced, fresh, last, rfl⟩ := applyRolledBack_ok_iff.mp applied
  refine ⟨⟨?_, ?_, ?_, ?_, ?_⟩, ?_, sourced.snoc rfl rfl⟩
  · simp [counts.announced]
  · simp [counts.completed]
  · simp [counts.reversing]
  · simp [counts.reversed, or_comm]
  · simp [counts.outcomes]
  · exact {
      orderly with
      reversal := by
        intro other among
        rcases Finset.mem_insert.mp among with rfl | earlier
        · exact announced
        · exact orderly.reversal earlier }

theorem applyFinished_replays {outcome : FinishOutcome} (replays : Replays past replay)
    (open' : replay.phase ≠ .finished) (applied : replay.applyFinished outcome = .ok after) :
    Replays (past ++ [.finished outcome]) after := by
  obtain ⟨counts, orderly, sourced⟩ := replays
  obtain ⟨bears, rfl⟩ := applyFinished_ok_iff.mp applied
  have before := orderly.ne_finished open'
  have none_before : ∀ other, .finished other ∉ past := by
    intro other among
    have recorded := (counts.outcomes other).mpr among
    rw [before] at recorded
    cases recorded
  refine ⟨⟨?_, ?_, ?_, ?_, ?_⟩, ?_, sourced.snoc rfl rfl⟩
  · simp [counts.announced]
  · simp [counts.completed]
  · simp [counts.reversing]
  · simp [counts.reversed]
  · simp [none_before, eq_comm]
  · exact {
      orderly with
      ended := by simp
      early := by simp [Preparing]
      waiting := by simp
      active := by simp [Active] }

theorem applyOperation_replays {kind : String}
    {source destination oldSha256 newSha256 : Option String}
    {bytesBefore bytesAfter editCount : Nat} (replays : Replays past replay)
    (applied : applyOperation crates replay index kind source destination oldSha256 newSha256
      bytesBefore bytesAfter editCount = .ok after) :
    Replays (past ++ [.operation index kind source destination oldSha256 newSha256 bytesBefore
      bytesAfter editCount]) after := by
  obtain ⟨counts, orderly, sourced⟩ := replays
  obtain ⟨phase, expectedPaths, inputs, outputs, rfl⟩ := applyOperation_ok applied
  refine ⟨⟨?_, ?_, ?_, ?_, ?_⟩, { orderly with }, sourced.snoc rfl rfl⟩
  · simp [counts.announced]
  · simp [counts.completed]
  · simp [counts.reversing]
  · simp [counts.reversed]
  · simp [counts.outcomes]

theorem applyPrepared_replays {operationCount pathCount : Nat} (replays : Replays past replay)
    (applied : applyPrepared crates replay operationCount pathCount = .ok after) :
    Replays (past ++ [.prepared operationCount pathCount]) after := by
  obtain ⟨counts, orderly, sourced⟩ := replays
  obtain ⟨phase, counted, declared, rfl⟩ := applyPrepared_ok applied
  refine ⟨⟨?_, ?_, ?_, ?_, ?_⟩, ?_, ?_, ?_⟩
  · simp [counts.announced]
  · simp [counts.completed]
  · simp [counts.reversing]
  · simp [counts.reversed]
  · simp [counts.outcomes]
  · exact {
      orderly with
      ended := by
        have open' : replay.phase ≠ .finished := by simp [phase]
        simp [orderly.ne_finished open']
      early := by simp [Preparing]
      waiting := by simp
      active := fun _ => rfl
      ready := fun _ => rfl
      counted := fun _ => counted }
  · intro path among identity known
    obtain ⟨index, backup, found⟩ := sourced.identified path among identity known
    exact ⟨index, backup, List.mem_append_left _ found⟩
  · intro _
    exact ⟨operationCount, List.mem_append_right _ (by rw [declared]; exact List.mem_cons_self)⟩

theorem pathStaged_replays {stageIdentity backupIdentity : Option FileIdentity}
    (replays : Replays past replay)
    (applied : replay.pathStaged index stageIdentity backupIdentity = .ok after) :
    Replays (past ++ [.pathStaged index stageIdentity backupIdentity]) after := by
  obtain ⟨counts, orderly, sourced⟩ := replays
  obtain ⟨phase, path, among, placed, _, stages, rfl⟩ := pathStaged_ok applied
  have early := orderly.early
    (phase.elim (fun same => .inr (.inl same)) fun same => .inr (.inr same))
  have bound : replay.stagedCount < replay.paths.length := (List.getElem?_eq_some_iff.mp among).1
  refine ⟨⟨?_, ?_, ?_, ?_, ?_⟩, ?_, ?_, ?_⟩
  · simp [counts.announced]
  · simp [counts.completed]
  · simp [counts.reversing]
  · simp [counts.reversed]
  · simp [counts.outcomes]
  · exact {
      orderly with
      ended := by
        have open' : replay.phase ≠ .finished := by rcases phase with same | same <;> simp [same]
        simp [orderly.ne_finished open']
      placed := by
        intro other found shown
        rw [List.getElem?_set] at shown
        split at shown
        · next same =>
            subst same
            cases shown
            exact orderly.placed _ path among
        · exact orderly.placed other found shown
      bounded := by
        intro other announced
        rw [early.2] at announced
        cases announced
      early := fun _ => early
      waiting := by simp
      active := by simp [Active]
      counted := by
        intro ready
        rw [early.1] at ready
        cases ready
      staged := by
        intro other found shown before
        rw [List.getElem?_set] at shown
        split at shown
        · next same =>
            subst same
            cases shown
            exact ⟨rfl, ⟨stages.stage, stages.backup, stages.journaled⟩⟩
        · next other_place =>
            have earlier : other < replay.stagedCount := by
              change other < replay.stagedCount + 1 at before
              omega
            exact orderly.staged other found shown earlier }
  · intro found shown identity known
    rcases List.mem_or_eq_of_mem_set shown with old | rfl
    · obtain ⟨other, backup, journaled⟩ := sourced.identified found old identity known
      exact ⟨other, backup, List.mem_append_left _ journaled⟩
    · have same : stageIdentity = some identity := known
      subst same
      exact ⟨index, backupIdentity, List.mem_append_right _ List.mem_cons_self⟩
  · intro ready
    change replay.prepared = true at ready
    rw [early.1] at ready
    cases ready

variable {host : Host} {weather : Weather}

theorem liftWorktree_reads {result : Except WorktreeError α} {good : α → Prop}
    (holds : ∀ value, result = .ok value → good value) :
    Reads host weather (liftWorktree result) good :=
  Task.yields_result result holds

theorem pathIntent_replays {path : String} {before after : StateRecord}
    {stageName backupName : Option String} (replays : Replays past replay) :
    Reads host weather (replay.pathIntent crates index path before after stageName backupName)
      (Replays (past ++ [.pathIntent index path before after stageName backupName])) := by
  obtain ⟨counts, orderly, sourced⟩ := replays
  unfold pathIntent
  refine Task.Yields.bind (liftWorktree_reads fun _ => id) fun found checked => ?_
  obtain ⟨middle, before', after'⟩ := found
  obtain ⟨intends, pathKeys, same⟩ := checkIntent_ok checked
  dsimp only at intends same
  subst same
  refine Task.Yields.bind (Task.yields_adapt (openTarget_reads _ _)) fun access opened => ?_
  have early := orderly.early (intends.phase.imp id .inl)
  have waiting := orderly.waiting intends.phase
  refine Task.yields_pure _ ⟨⟨?_, ?_, ?_, ?_, ?_⟩, ?_, ?_, ?_⟩
  · simp [counts.announced]
  · simp [counts.completed]
  · simp [counts.reversing]
  · simp [counts.reversed]
  · simp [counts.outcomes]
  · exact {
      orderly with
      ended := by
        have open' : replay.phase ≠ .finished := by
          rcases intends.phase with same | same <;> simp [same]
        simp [orderly.ne_finished open']
      placed := by
        intro other found shown
        rw [List.getElem?_append] at shown
        split at shown
        · exact orderly.placed other found shown
        · next beyond =>
            dsimp only at beyond shown
            obtain ⟨bound, same⟩ := List.getElem?_eq_some_iff.mp shown
            rw [List.length_singleton] at bound
            have here : other = replay.paths.length := by omega
            subst same
            simp only [List.getElem_singleton]
            rw [here]
            exact intends.placed
      bounded := by
        intro other announced
        rw [early.2] at announced
        cases announced
      early := fun _ => early
      waiting := fun _ => waiting
      active := by simp [Active]
      counted := by
        intro ready
        rw [early.1] at ready
        cases ready
      staged := by
        intro other found shown impossible
        rw [waiting] at impossible
        omega }
  · intro found shown identity known
    rcases List.mem_append.mp shown with old | new
    · obtain ⟨other, backup, journaled⟩ := sourced.identified found old identity known
      exact ⟨other, backup, List.mem_append_left _ journaled⟩
    · rw [List.mem_singleton] at new
      subst new
      cases known
  · intro ready
    change replay.prepared = true at ready
    rw [early.1] at ready
    cases ready

/-- Every record taken leaves the replay with what the records say. -/
theorem applyRecord_replays (replays : Replays past replay) (record : Record) :
    Reads host weather (applyRecord crates replay record) (Replays (past ++ [record])) := by
  unfold applyRecord
  refine yields_check fun open' => ?_
  cases record with
  | header => exact Task.yields_throw _
  | operation => exact liftWorktree_reads fun _ => applyOperation_replays replays
  | pathIntent => exact pathIntent_replays replays
  | pathStaged => exact liftWorktree_reads fun _ => pathStaged_replays replays
  | prepared => exact liftWorktree_reads fun _ => applyPrepared_replays replays
  | commitIntent => exact liftWorktree_reads fun _ => commitIntent_replays replays
  | committed => exact liftWorktree_reads fun _ => applyCommitted_replays replays
  | rollbackIntent => exact liftWorktree_reads fun _ => rollbackIntent_replays replays
  | rolledBack => exact liftWorktree_reads fun _ => applyRolledBack_replays replays
  | finished => exact liftWorktree_reads fun _ => applyFinished_replays replays open'

theorem applyRecords_replays (replays : Replays past replay) (records : List Record) :
    Reads host weather (applyRecords crates replay records) (Replays (past ++ records)) := by
  induction records generalizing past replay with
  | nil =>
      rw [List.append_nil]
      exact Task.yields_pure _ replays
  | cons record rest ih =>
      refine Task.Yields.bind (applyRecord_replays replays record) fun middle so_far => ?_
      have tail := ih so_far
      rw [List.append_assoc] at tail
      exact tail

theorem new_replays (root : FsRoot) (options : WorktreeOptions) (header : Header) :
    Replays [] (new root options header) := by
  refine ⟨⟨by simp [new], by simp [new], by simp [new], by simp [new], by simp [new]⟩, ?_,
    by simp [new], by simp [new]⟩
  exact {
    ended := by simp [new]
    placed := by simp [new]
    announcing := by simp [new]
    reversal := by simp [new]
    bounded := by simp [new]
    early := by simp [new]
    waiting := by simp [new]
    active := by simp [new, Active]
    ready := by simp [new]
    counted := by simp [new]
    staged := by simp [new] }

end Replay

/-! ### A parsed journal -/

/-- What a parsed journal says about the records it was parsed from. -/
structure ParsedJournal.Tells (parsed : ParsedJournal) (records : List Record) : Prop where
  announced : ∀ index, index ∈ parsed.commitIntents ↔ .commitIntent index ∈ records
  reversing : ∀ index, index ∈ parsed.rollbackIntents ↔ .rollbackIntent index ∈ records
  reversed : ∀ index, index ∈ parsed.rolledBack ↔ .rolledBack index ∈ records
  outcomes : ∀ outcome, parsed.finished = some outcome ↔ .finished outcome ∈ records
  placed : ∀ (index : Nat) (path : RecoveryPath), parsed.paths[index]? = some path →
    path.index = index
  announcing : parsed.rollbackIntents ⊆ parsed.commitIntents
  reversal : parsed.rolledBack ⊆ parsed.rollbackIntents
  bounded : ∀ index ∈ parsed.commitIntents, index < parsed.paths.length
  ready : parsed.commitIntents ≠ ∅ → parsed.prepared = true
  staged : parsed.prepared = true → ∀ path ∈ parsed.paths,
    path.staged = true ∧ Replay.Stages path path.stageIdentity path.backupIdentity
  identified : ∀ path ∈ parsed.paths, ∀ identity, path.stageIdentity = some identity →
    ∃ index backup, .pathStaged index (some identity) backup ∈ records
  covered : parsed.prepared = true →
    ∃ operationCount, .prepared operationCount parsed.paths.length ∈ records

theorem Replay.finish_eq {T : Type} {crates : Crates T} {replay : Replay} {parsed : ParsedJournal}
    (finished : replay.finish crates = .ok parsed) : parsed =
      { transactionId := replay.transactionId
        paths := replay.paths
        prepared := replay.prepared
        commitIntents := replay.commitIntents
        rollbackIntents := replay.rollbackIntents
        rolledBack := replay.rolledBack
        finished := replay.finished } := by
  unfold Replay.finish at finished
  split at finished
  · obtain ⟨_, _, same⟩ := bind_ok_iff.mp finished
    cases same
    rfl
  · cases finished
    rfl

theorem Replay.finish_tells {T : Type} {crates : Crates T} {replay : Replay} {past : List Record}
    {parsed : ParsedJournal} (replays : Replay.Replays past replay)
    (finished : replay.finish crates = .ok parsed) : parsed.Tells past := by
  rw [Replay.finish_eq finished]
  obtain ⟨counts, orderly, sourced⟩ := replays
  exact {
    announced := counts.announced
    reversing := counts.reversing
    reversed := counts.reversed
    outcomes := counts.outcomes
    placed := orderly.placed
    announcing := orderly.announcing
    reversal := orderly.reversal
    bounded := orderly.bounded
    ready := orderly.ready
    identified := sourced.identified
    covered := sourced.covered
    staged := by
      intro prepared path among
      obtain ⟨index, bound, shown⟩ := List.getElem_of_mem among
      have place : replay.paths[index]? = some path := List.getElem?_eq_some_iff.mpr ⟨bound, shown⟩
      exact orderly.staged index path place (by rw [orderly.counted prepared]; exact bound) }

theorem parseJournal_reads {T : Type} {crates : Crates T} {host : Host} {weather : Weather}
    (root : FsRoot) (entries : List Entry) (options : WorktreeOptions) :
    Reads host weather (parseJournal crates root entries options)
      fun parsed => parsed.Tells (entries.tail.map Entry.record) := by
  unfold parseJournal
  refine Task.Yields.bind (Replay.liftWorktree_reads fun _ _ => trivial) fun header _ => ?_
  refine Task.Yields.bind (Replay.applyRecords_replays (Replay.new_replays root options header) _)
    fun replay replays => ?_
  exact Replay.liftWorktree_reads fun parsed => Replay.finish_tells replays

end Worktree
