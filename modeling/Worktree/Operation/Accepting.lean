import Worktree.Operation.Reserving
/-
Which records a replay takes after those of the preparation, and which runs leave
a journal that can be replayed.

A record is taken or refused for what stands before it alone, so the journals that
are taken form a language, and a run keeps to it when each of its appends does.
-/

namespace Worktree

open CrashLogic

/-! ### The order of the records -/

/-- Nothing has ended yet. -/
def Going (past : List Record) : Prop :=
  ∀ outcome, .finished outcome ∉ past

/-- Whether an end of this kind may stand after these records; `ready` says whether
the preparation was completed. -/
def Bears (ready : Bool) (count : Nat) (past : List Record) : FinishOutcome → Prop
  | .committed => ready = true ∧ ∀ index, index < count → .committed index ∈ past
  | .aborted => ∀ index, .commitIntent index ∉ past
  | .rolledBack => ready = true ∧ ∃ index, .commitIntent index ∈ past

/-- Whether a record may stand after these. -/
def Admits (ready : Bool) (count : Nat) (past : List Record) : Record → Prop
  | .commitIntent index => ready = true ∧ index < count ∧ Forward past ∧
      ∀ other, .commitIntent other ∈ past → .committed other ∈ past ∧ other < index
  | .committed index => Forward past ∧ .commitIntent index ∈ past ∧
      (∀ other, .commitIntent other ∈ past → other ≤ index) ∧ .committed index ∉ past
  | .rollbackIntent index => Going past ∧ .commitIntent index ∈ past ∧
      ∀ other, .rollbackIntent other ∈ past → .rolledBack other ∈ past ∧ index < other
  | .rolledBack index => Going past ∧ .rollbackIntent index ∈ past ∧
      (∀ other, .rollbackIntent other ∈ past → index ≤ other) ∧ .rolledBack index ∉ past
  | .finished outcome => Going past ∧ Bears ready count past outcome
  | _ => False

/-- The records after the preparation of a journal of so many paths. -/
inductive Course (ready : Bool) (count : Nat) : List Record → Prop
  | nil : Course ready count []
  | snoc {past : List Record} {record : Record} (course : Course ready count past)
      (admits : Admits ready count past record) : Course ready count (past ++ [record])

variable {ready : Bool} {count index : Nat} {past tail : List Record} {record : Record}

theorem course_snoc_iff : Course ready count (past ++ [record]) ↔
    Course ready count past ∧ Admits ready count past record := by
  constructor
  · intro course
    generalize same : past ++ [record] = records at course
    cases course with
    | nil => exact absurd same (List.append_ne_nil_of_right_ne_nil _ (List.cons_ne_nil _ _))
    | snoc course admits =>
        obtain ⟨rfl, last⟩ := List.append_inj' same rfl
        cases last
        exact ⟨course, admits⟩
  · rintro ⟨course, admits⟩
    exact course.snoc admits

theorem Course.init (course : Course ready count (past ++ tail)) : Course ready count past := by
  induction tail using List.reverseRecOn with
  | nil => rwa [List.append_nil] at course
  | append_singleton tail record ih =>
      rw [← List.append_assoc] at course
      exact ih (course_snoc_iff.mp course).1

theorem forward_going (forward : Forward past) : Going past := by
  intro outcome among
  obtain ⟨index, same | same⟩ := forward _ among <;> cases same

theorem forward_still (forward : Forward past) (index : Nat) : .rollbackIntent index ∉ past := by
  intro among
  obtain ⟨other, same | same⟩ := forward _ among <;> cases same

/-! ### The state of a replay -/

namespace Replay

variable {T : Type} {crates : Crates T} {replay after : Replay}

/-- Where the replay is after these records. -/
inductive Standing (ready : Bool) (past : List Record) (phase : ReplayPhase) : Prop
  | waiting (empty : past = []) (early : ready = false) (preparing : Preparing phase)
  | prepared (empty : past = []) (complete : ready = true) (here : phase = .prepared)
  | committing (complete : ready = true) (begun : ∃ index, .commitIntent index ∈ past)
      (forward : Forward past) (here : phase = .commit)
  | reversing (begun : ∃ index, .rollbackIntent index ∈ past) (going : Going past)
      (here : phase = .rollback)
  | ended (finished : ∃ outcome, .finished outcome ∈ past) (here : phase = .finished)

/-- What a replay of a prepared journal has of the records after the preparation. -/
structure Tracks (ready : Bool) (count : Nat) (past : List Record) (replay : Replay) : Prop where
  standing : Standing ready past replay.phase
  prepared : replay.prepared = ready
  paths : replay.paths.length = count
  announced : ∀ index, index ∈ replay.commitIntents ↔ .commitIntent index ∈ past
  completed : ∀ index, index ∈ replay.committed ↔ .committed index ∈ past
  reversing : ∀ index, index ∈ replay.rollbackIntents ↔ .rollbackIntent index ∈ past
  reversed : ∀ index, index ∈ replay.rolledBack ↔ .rolledBack index ∈ past
  latest : ∀ index, replay.lastCommitIntent = some index ↔ .commitIntent index ∈ past ∧
    ∀ other, .commitIntent other ∈ past → other ≤ index
  lowest : ∀ index, replay.lastRollbackIntent = some index ↔ .rollbackIntent index ∈ past ∧
    ∀ other, .rollbackIntent other ∈ past → index ≤ other
  confirmed : ∀ index, .committed index ∈ past → .commitIntent index ∈ past
  settled : ∀ index other, .commitIntent index ∈ past → .commitIntent other ∈ past →
    index < other → .committed index ∈ past
  restored : ∀ index other, .rollbackIntent index ∈ past → .rollbackIntent other ∈ past →
    other < index → .rolledBack index ∈ past
  bounded : ∀ index, .commitIntent index ∈ past → index < count
  silent : replay.lastCommitIntent = none → ∀ index, .commitIntent index ∉ past
  unmoved : replay.lastRollbackIntent = none → ∀ index, .rollbackIntent index ∉ past

namespace Tracks

variable (tracks : replay.Tracks ready count past)
include tracks

theorem going_iff : Going past ↔ replay.phase ≠ .finished := by
  rcases tracks.standing with ⟨rfl, _, preparing⟩ | ⟨rfl, _, here⟩ | ⟨_, _, forward, here⟩ |
    ⟨_, going, here⟩ | ⟨⟨outcome, among⟩, here⟩
  · refine ⟨fun _ same => ?_, fun _ outcome => List.not_mem_nil⟩
    rw [same] at preparing
    simp [Preparing] at preparing
  · exact ⟨fun _ => by simp [here], fun _ outcome => List.not_mem_nil⟩
  · exact ⟨fun _ => by simp [here], fun _ => forward_going forward⟩
  · exact ⟨fun _ => by simp [here], fun _ => going⟩
  · exact ⟨fun going => absurd among (going outcome), fun other => absurd here other⟩

theorem forward_iff : ready = true ∧ Forward past ↔
    replay.phase = .prepared ∨ replay.phase = .commit := by
  rcases tracks.standing with ⟨rfl, early, preparing⟩ | ⟨rfl, complete, here⟩ |
    ⟨complete, _, forward, here⟩ | ⟨⟨index, begun⟩, _, here⟩ | ⟨⟨outcome, among⟩, here⟩
  · constructor
    · rintro ⟨complete, _⟩
      rw [early] at complete
      cases complete
    · rintro (same | same) <;> rw [same] at preparing <;> simp [Preparing] at preparing
  · exact ⟨fun _ => .inl here, fun _ => ⟨complete, fun _ impossible =>
      absurd impossible List.not_mem_nil⟩⟩
  · exact ⟨fun _ => .inr here, fun _ => ⟨complete, forward⟩⟩
  · constructor
    · rintro ⟨_, forward⟩
      exact absurd begun (forward_still forward index)
    · rintro (same | same) <;> rw [same] at here <;> cases here
  · constructor
    · rintro ⟨_, forward⟩
      exact absurd among (forward_going forward outcome)
    · rintro (same | same) <;> rw [same] at here <;> cases here

/-! ### One record -/

theorem commitIntent_iff : (∃ after, replay.commitIntent index = .ok after) ↔
    Admits ready count past (.commitIntent index) := by
  simp only [commitIntent_ok_iff, exists_and_left, exists_eq', and_true, Admits, tracks.paths,
    ← tracks.forward_iff, tracks.announced, tracks.completed]
  constructor
  · rintro ⟨⟨complete, forward⟩, bound, last, fresh⟩
    refine ⟨complete, bound, forward, fun other among => ?_⟩
    cases known : replay.lastCommitIntent with
    | none => exact absurd among (tracks.silent known other)
    | some previous =>
        obtain ⟨announced, above⟩ := (tracks.latest previous).mp known
        obtain ⟨done, below⟩ := last previous known
        have within := above other among
        by_cases same : other = previous
        · subst same
          exact ⟨done, below⟩
        · exact ⟨tracks.settled other previous among announced (by omega), by omega⟩
  · rintro ⟨complete, bound, forward, above⟩
    refine ⟨⟨complete, forward⟩, bound, fun previous known => ?_, fun again => ?_⟩
    · exact above previous ((tracks.latest previous).mp known).1
    · exact absurd (above index again).2 (Nat.lt_irrefl _)

theorem applyCommitted_iff : (∃ after, replay.applyCommitted index = .ok after) ↔
    Admits ready count past (.committed index) := by
  simp only [applyCommitted_ok_iff, exists_and_left, exists_eq', and_true, Admits,
    tracks.announced, tracks.completed, tracks.latest]
  constructor
  · rintro ⟨here, announced, fresh, _, above⟩
    exact ⟨(tracks.forward_iff.mpr (.inr here)).2, announced, above, fresh⟩
  · rintro ⟨forward, announced, above, fresh⟩
    refine ⟨?_, announced, fresh, announced, above⟩
    rcases tracks.standing with ⟨rfl, _, _⟩ | ⟨rfl, _, _⟩ | ⟨_, _, _, here⟩ | ⟨⟨other, begun⟩, _, _⟩ |
      ⟨⟨outcome, among⟩, _⟩
    · cases announced
    · cases announced
    · exact here
    · exact absurd begun (forward_still forward other)
    · exact absurd among (forward_going forward outcome)

theorem rollbackIntent_iff : (∃ after, replay.rollbackIntent index = .ok after) ↔
    Admits ready count past (.rollbackIntent index) := by
  simp only [rollbackIntent_ok_iff, exists_and_left, exists_eq', and_true, Admits,
    tracks.going_iff, tracks.announced, tracks.reversing, tracks.reversed]
  constructor
  · rintro ⟨here, announced, last, fresh⟩
    refine ⟨by rcases here with same | same <;> simp [same], announced, fun other among => ?_⟩
    cases known : replay.lastRollbackIntent with
    | none => exact absurd among (tracks.unmoved known other)
    | some previous =>
        obtain ⟨announced, below⟩ := (tracks.lowest previous).mp known
        obtain ⟨done, above⟩ := last previous known
        have within := below other among
        by_cases same : other = previous
        · subst same
          exact ⟨done, above⟩
        · exact ⟨tracks.restored other previous among announced (by omega), by omega⟩
  · rintro ⟨going, announced, below⟩
    refine ⟨?_, announced, fun previous known => ?_, fun again => ?_⟩
    · rcases tracks.standing with ⟨rfl, _, _⟩ | ⟨rfl, _, _⟩ | ⟨_, _, _, here⟩ | ⟨_, _, here⟩ |
        ⟨_, here⟩
      · cases announced
      · cases announced
      · exact .inl here
      · exact .inr here
      · exact absurd here going
    · exact below previous ((tracks.lowest previous).mp known).1
    · exact absurd (below index again).2 (Nat.lt_irrefl _)

theorem applyRolledBack_iff : (∃ after, replay.applyRolledBack index = .ok after) ↔
    Admits ready count past (.rolledBack index) := by
  simp only [applyRolledBack_ok_iff, exists_and_left, exists_eq', and_true, Admits,
    tracks.going_iff, tracks.reversing, tracks.reversed, tracks.lowest]
  constructor
  · rintro ⟨here, announced, fresh, _, below⟩
    exact ⟨by simp [here], announced, below, fresh⟩
  · rintro ⟨going, announced, below, fresh⟩
    refine ⟨?_, announced, fresh, announced, below⟩
    rcases tracks.standing with ⟨rfl, _, _⟩ | ⟨rfl, _, _⟩ | ⟨_, _, forward, _⟩ | ⟨_, _, here⟩ |
      ⟨_, here⟩
    · cases announced
    · cases announced
    · exact absurd announced (forward_still forward index)
    · exact here
    · exact absurd here going

theorem bears_iff (outcome : FinishOutcome) : replay.Bears outcome ↔
    Worktree.Bears ready count past outcome := by
  have empty : replay.commitIntents = ∅ ↔ ∀ index, .commitIntent index ∉ past := by
    simp only [Finset.eq_empty_iff_forall_notMem, tracks.announced]
  cases outcome with
  | aborted => exact empty
  | rolledBack =>
      unfold Bears Worktree.Bears
      rw [tracks.prepared, Ne, empty]
      simp
  | committed =>
      unfold Bears Worktree.Bears
      rw [tracks.prepared, tracks.paths]
      refine and_congr_right fun _ => ?_
      have within : replay.committed ⊆ Finset.range count := fun index among =>
        Finset.mem_range.mpr (tracks.bounded index
          (tracks.confirmed index ((tracks.completed index).mp among)))
      constructor
      · rintro ⟨counted, _⟩ index bound
        have whole : replay.committed = Finset.range count :=
          Finset.eq_of_subset_of_card_le within (by rw [Finset.card_range, counted])
        exact (tracks.completed index).mp (by rw [whole]; exact Finset.mem_range.mpr bound)
      · intro every
        have whole : replay.committed = Finset.range count := by
          refine Finset.Subset.antisymm within fun index bound => ?_
          exact (tracks.completed index).mpr (every index (Finset.mem_range.mp bound))
        refine ⟨by rw [whole, Finset.card_range], ?_⟩
        ext index
        rw [tracks.announced, tracks.completed]
        refine ⟨fun among => every index (tracks.bounded index among), tracks.confirmed index⟩

theorem commitIntent_tracks (applied : replay.commitIntent index = .ok after) :
    after.Tracks ready count (past ++ [.commitIntent index]) := by
  obtain ⟨complete, bound, forward, above⟩ := tracks.commitIntent_iff.mp ⟨after, applied⟩
  obtain ⟨_, _, _, _, rfl⟩ := commitIntent_ok_iff.mp applied
  exact {
    standing := .committing complete ⟨index, by simp⟩ (fun record among => by
      rcases List.mem_append.mp among with earlier | last
      · exact forward record earlier
      · exact ⟨index, .inl (List.mem_singleton.mp last)⟩) rfl
    prepared := tracks.prepared
    paths := tracks.paths
    announced := by simp [tracks.announced, or_comm]
    completed := by simp [tracks.completed]
    reversing := by simp [tracks.reversing]
    reversed := by simp [tracks.reversed]
    latest := by
      intro other
      simp only [List.mem_append, List.mem_singleton, Option.some.injEq, Record.commitIntent.injEq]
      constructor
      · rintro rfl
        refine ⟨.inr rfl, fun other among => ?_⟩
        rcases among with earlier | same
        · exact Nat.le_of_lt (above other earlier).2
        · exact Nat.le_of_eq same
      · rintro ⟨earlier | same, highest⟩
        · have within := highest index (.inr rfl)
          have below := (above other earlier).2
          omega
        · exact same.symm
    lowest := by simpa using tracks.lowest
    confirmed := by
      intro other among
      simp only [List.mem_append, List.mem_singleton, reduceCtorEq, or_false] at among ⊢
      exact .inl (tracks.confirmed other among)
    settled := by
      intro first second among later below
      simp only [List.mem_append, List.mem_singleton, Record.commitIntent.injEq, reduceCtorEq,
        or_false] at among later ⊢
      rcases among with earlier | rfl
      · exact (above first earlier).1
      · rcases later with earlier | rfl
        · have beneath := (above second earlier).2
          omega
        · exact absurd below (Nat.lt_irrefl _)
    restored := by simpa using tracks.restored
    bounded := by
      intro other among
      simp only [List.mem_append, List.mem_singleton, Record.commitIntent.injEq] at among
      rcases among with earlier | rfl
      · exact tracks.bounded other earlier
      · exact bound
    silent := by simp
    unmoved := by simpa using tracks.unmoved }

theorem applyCommitted_tracks (applied : replay.applyCommitted index = .ok after) :
    after.Tracks ready count (past ++ [.committed index]) := by
  obtain ⟨forward, announced, above, fresh⟩ := tracks.applyCommitted_iff.mp ⟨after, applied⟩
  obtain ⟨here, _, _, _, rfl⟩ := applyCommitted_ok_iff.mp applied
  exact {
    standing := .committing (tracks.forward_iff.mpr (.inr here)).1 ⟨index, by simpa using announced⟩
      (fun record among => by
        rcases List.mem_append.mp among with earlier | last
        · exact forward record earlier
        · exact ⟨index, .inr (List.mem_singleton.mp last)⟩) here
    prepared := tracks.prepared
    paths := tracks.paths
    announced := by simp [tracks.announced]
    completed := by simp [tracks.completed, or_comm]
    reversing := by simp [tracks.reversing]
    reversed := by simp [tracks.reversed]
    latest := by simpa using tracks.latest
    lowest := by simpa using tracks.lowest
    confirmed := by
      intro other among
      simp only [List.mem_append, List.mem_singleton, Record.committed.injEq, reduceCtorEq,
        or_false] at among ⊢
      rcases among with earlier | rfl
      · exact tracks.confirmed other earlier
      · exact announced
    settled := by
      intro first second among later below
      simp only [List.mem_append, List.mem_singleton, reduceCtorEq, or_false] at among later ⊢
      exact .inl (tracks.settled first second among later below)
    restored := by simpa using tracks.restored
    bounded := by simpa using tracks.bounded
    silent := by simpa using tracks.silent
    unmoved := by simpa using tracks.unmoved }

theorem rollbackIntent_tracks (applied : replay.rollbackIntent index = .ok after) :
    after.Tracks ready count (past ++ [.rollbackIntent index]) := by
  obtain ⟨going, announced, below⟩ := tracks.rollbackIntent_iff.mp ⟨after, applied⟩
  obtain ⟨_, _, _, _, rfl⟩ := rollbackIntent_ok_iff.mp applied
  exact {
    standing := .reversing ⟨index, by simp⟩ (fun outcome among => by
      rcases List.mem_append.mp among with earlier | last
      · exact going outcome earlier
      · cases List.mem_singleton.mp last) rfl
    prepared := tracks.prepared
    paths := tracks.paths
    announced := by simp [tracks.announced]
    completed := by simp [tracks.completed]
    reversing := by simp [tracks.reversing, or_comm]
    reversed := by simp [tracks.reversed]
    latest := by simpa using tracks.latest
    lowest := by
      intro other
      simp only [List.mem_append, List.mem_singleton, Option.some.injEq,
        Record.rollbackIntent.injEq]
      constructor
      · rintro rfl
        refine ⟨.inr rfl, fun other among => ?_⟩
        rcases among with earlier | same
        · exact Nat.le_of_lt (below other earlier).2
        · exact Nat.le_of_eq same.symm
      · rintro ⟨earlier | same, lowest⟩
        · have within := lowest index (.inr rfl)
          have above := (below other earlier).2
          omega
        · exact same.symm
    confirmed := by simpa using tracks.confirmed
    settled := by simpa using tracks.settled
    restored := by
      intro first second among later beneath
      simp only [List.mem_append, List.mem_singleton, Record.rollbackIntent.injEq, reduceCtorEq,
        or_false] at among later ⊢
      rcases among with earlier | rfl
      · exact (below first earlier).1
      · rcases later with earlier | rfl
        · have above := (below second earlier).2
          omega
        · exact absurd beneath (Nat.lt_irrefl _)
    bounded := by simpa using tracks.bounded
    silent := by simpa using tracks.silent
    unmoved := by simp }

theorem applyRolledBack_tracks (applied : replay.applyRolledBack index = .ok after) :
    after.Tracks ready count (past ++ [.rolledBack index]) := by
  obtain ⟨going, announced, below, fresh⟩ := tracks.applyRolledBack_iff.mp ⟨after, applied⟩
  obtain ⟨here, _, _, _, rfl⟩ := applyRolledBack_ok_iff.mp applied
  exact {
    standing := .reversing ⟨index, by simpa using announced⟩ (fun outcome among => by
      rcases List.mem_append.mp among with earlier | last
      · exact going outcome earlier
      · cases List.mem_singleton.mp last) here
    prepared := tracks.prepared
    paths := tracks.paths
    announced := by simp [tracks.announced]
    completed := by simp [tracks.completed]
    reversing := by simp [tracks.reversing]
    reversed := by simp [tracks.reversed, or_comm]
    latest := by simpa using tracks.latest
    lowest := by simpa using tracks.lowest
    confirmed := by simpa using tracks.confirmed
    settled := by simpa using tracks.settled
    restored := by
      intro first second among later beneath
      simp only [List.mem_append, List.mem_singleton, reduceCtorEq, or_false] at among later ⊢
      exact .inl (tracks.restored first second among later beneath)
    bounded := by simpa using tracks.bounded
    silent := by simpa using tracks.silent
    unmoved := by simpa using tracks.unmoved }

theorem applyFinished_tracks {outcome : FinishOutcome}
    (applied : replay.applyFinished outcome = .ok after) :
    after.Tracks ready count (past ++ [.finished outcome]) := by
  obtain ⟨_, rfl⟩ := applyFinished_ok_iff.mp applied
  exact {
    standing := .ended ⟨outcome, by simp⟩ rfl
    prepared := tracks.prepared
    paths := tracks.paths
    announced := by simp [tracks.announced]
    completed := by simp [tracks.completed]
    reversing := by simp [tracks.reversing]
    reversed := by simp [tracks.reversed]
    latest := by simpa using tracks.latest
    lowest := by simpa using tracks.lowest
    confirmed := by simpa using tracks.confirmed
    settled := by simpa using tracks.settled
    restored := by simpa using tracks.restored
    bounded := by simpa using tracks.bounded
    silent := by simpa using tracks.silent
    unmoved := by simpa using tracks.unmoved }

end Tracks

/-! ### Records that are refused -/

/-- Whatever goes wrong, the journal is to blame. -/
def Corrupts {α : Type} (result : Except WorktreeError α) : Prop :=
  ∀ error, result = .error error → error.code = .journalCorrupt

theorem corrupts_ok {α : Type} (value : α) : Corrupts (.ok value) := by
  intro error same
  cases same

theorem corrupts_require (condition : Bool) (message : String) :
    Corrupts (require condition message) := by
  unfold require
  intro error same
  split at same
  · cases same
  · cases same
    rfl

theorem corrupts_requirePhase (actual expected : ReplayPhase) (name : String) :
    Corrupts (requirePhase actual expected name) := by
  unfold requirePhase
  intro error same
  split at same
  · cases same
  · cases same
    rfl

theorem Corrupts.bind {α β : Type} {result : Except WorktreeError α}
    {next : α → Except WorktreeError β} (first : Corrupts result)
    (second : ∀ value, Corrupts (next value)) : Corrupts (result >>= next) := by
  intro error same
  cases result with
  | ok value => exact second value error same
  | error _ =>
      cases same
      exact first _ rfl

theorem corrupts_commitIntent : Corrupts (replay.commitIntent index) :=
  (corrupts_require _ _).bind fun _ => (corrupts_require _ _).bind fun _ =>
    (corrupts_require _ _).bind fun _ => corrupts_ok _

theorem corrupts_applyCommitted : Corrupts (replay.applyCommitted index) :=
  (corrupts_requirePhase _ _ _).bind fun _ => (corrupts_require _ _).bind fun _ => corrupts_ok _

theorem corrupts_rollbackIntent : Corrupts (replay.rollbackIntent index) :=
  (corrupts_require _ _).bind fun _ => corrupts_ok _

theorem corrupts_applyRolledBack : Corrupts (replay.applyRolledBack index) :=
  (corrupts_requirePhase _ _ _).bind fun _ => (corrupts_require _ _).bind fun _ => corrupts_ok _

theorem corrupts_applyFinished {outcome : FinishOutcome} :
    Corrupts (replay.applyFinished outcome) :=
  (corrupts_require _ _).bind fun _ => corrupts_ok _

/-- The other paths and endpoints are not touched. -/
structure Keeps (replay after : Replay) : Prop where
  expected : after.expectedPaths = replay.expectedPaths
  paths : after.paths = replay.paths
  prepared : after.prepared = replay.prepared

/-- The record is taken, and the replay goes on from it, or it is refused. -/
def Decides (crates : Crates T) (ready : Bool) (count : Nat) (past : List Record)
    (replay : Replay) (record : Record) : Prop :=
  (Admits ready count past record ∧ ∃ after, applyRecord crates replay record = pure after ∧
    after.Tracks ready count (past ++ [record]) ∧ replay.Keeps after) ∨
  (¬ Admits ready count past record ∧ ∃ error : WorktreeError, error.code = .journalCorrupt ∧
    applyRecord crates replay record = throw error)

/-- After the preparation no other record of one is taken. -/
theorem refuses_preparing (prepares : record.prepares = true)
    (late : replay.phase ≠ .operations ∧ replay.phase ≠ .paths ∧ replay.phase ≠ .staged) :
    ∃ error : WorktreeError, error.code = .journalCorrupt ∧
      applyRecord crates replay record = throw error := by
  unfold applyRecord
  by_cases finished : replay.phase = .finished
  · rw [if_pos finished]
    exact ⟨_, rfl, rfl⟩
  · rw [if_neg finished]
    cases record with
    | header => exact ⟨_, rfl, rfl⟩
    | operation =>
        dsimp only
        unfold applyOperation requirePhase
        rw [if_neg late.1]
        exact ⟨_, rfl, rfl⟩
    | pathIntent index path before after stageName backupName =>
        have refused : checkIntent crates replay index path before after stageName backupName =
            .error (corrupt ("PathIntent" ++ " appeared in the wrong phase")) := by
          unfold checkIntent enterPaths requirePhase
          rw [if_neg late.1]
          change (if replay.phase = .paths then _ else _ : Except WorktreeError Unit) >>= _ = _
          rw [if_neg late.2.1]
          rfl
        dsimp only
        unfold pathIntent
        rw [refused]
        exact ⟨_, rfl, rfl⟩
    | pathStaged index stageIdentity backupIdentity =>
        have refused : replay.pathStaged index stageIdentity backupIdentity =
            .error (corrupt ("PathStaged" ++ " appeared in the wrong phase")) := by
          unfold pathStaged enterStaged requirePhase
          rw [if_neg late.2.1]
          change (if replay.phase = .staged then _ else _ : Except WorktreeError Unit) >>= _ = _
          rw [if_neg late.2.2]
          rfl
        dsimp only
        rw [refused]
        exact ⟨_, rfl, rfl⟩
    | prepared =>
        dsimp only
        unfold applyPrepared requirePhase
        rw [if_neg late.2.2]
        exact ⟨_, rfl, rfl⟩
    | _ => cases prepares

theorem Tracks.late (tracks : replay.Tracks ready count past)
    (begun : ready = true ∨ past ≠ []) :
    replay.phase ≠ .operations ∧ replay.phase ≠ .paths ∧ replay.phase ≠ .staged := by
  rcases tracks.standing with ⟨empty, early, _⟩ | ⟨_, _, here⟩ | ⟨_, _, _, here⟩ | ⟨_, _, here⟩ |
    ⟨_, here⟩
  · rcases begun with complete | some_record
    · rw [early] at complete
      cases complete
    · exact absurd empty some_record
  all_goals simp [here]

/-- What a record after the preparation does to a replay that goes on. -/
def follow (replay : Replay) : Record → Except WorktreeError Replay
  | .commitIntent index => replay.commitIntent index
  | .committed index => replay.applyCommitted index
  | .rollbackIntent index => replay.rollbackIntent index
  | .rolledBack index => replay.applyRolledBack index
  | .finished outcome => replay.applyFinished outcome
  | _ => .ok replay

theorem applyRecord_follow (going : replay.phase ≠ .finished) (later : record.prepares = false) :
    applyRecord crates replay record = liftWorktree (replay.follow record) := by
  unfold applyRecord
  rw [if_neg going]
  cases record with
  | commitIntent | committed | rollbackIntent | rolledBack | finished => rfl
  | _ => cases later

theorem corrupts_follow : Corrupts (replay.follow record) := by
  cases record with
  | commitIntent index => exact corrupts_commitIntent
  | committed index => exact corrupts_applyCommitted
  | rollbackIntent index => exact corrupts_rollbackIntent
  | rolledBack index => exact corrupts_applyRolledBack
  | finished outcome => exact corrupts_applyFinished
  | _ => exact corrupts_ok _

theorem follow_keeps (followed : replay.follow record = .ok after) : replay.Keeps after := by
  cases record with
  | commitIntent index =>
      obtain ⟨_, _, _, _, rfl⟩ := commitIntent_ok_iff.mp followed
      exact ⟨rfl, rfl, rfl⟩
  | committed index =>
      obtain ⟨_, _, _, _, rfl⟩ := applyCommitted_ok_iff.mp followed
      exact ⟨rfl, rfl, rfl⟩
  | rollbackIntent index =>
      obtain ⟨_, _, _, _, rfl⟩ := rollbackIntent_ok_iff.mp followed
      exact ⟨rfl, rfl, rfl⟩
  | rolledBack index =>
      obtain ⟨_, _, _, _, rfl⟩ := applyRolledBack_ok_iff.mp followed
      exact ⟨rfl, rfl, rfl⟩
  | finished outcome =>
      obtain ⟨_, rfl⟩ := applyFinished_ok_iff.mp followed
      exact ⟨rfl, rfl, rfl⟩
  | _ =>
      cases followed
      exact ⟨rfl, rfl, rfl⟩

theorem Tracks.follow_iff (tracks : replay.Tracks ready count past)
    (going : replay.phase ≠ .finished) (later : record.prepares = false) :
    (∃ after, replay.follow record = .ok after) ↔ Admits ready count past record := by
  cases record with
  | commitIntent index => exact tracks.commitIntent_iff
  | committed index => exact tracks.applyCommitted_iff
  | rollbackIntent index => exact tracks.rollbackIntent_iff
  | rolledBack index => exact tracks.applyRolledBack_iff
  | finished outcome =>
      change (∃ after, replay.applyFinished outcome = .ok after) ↔ _
      simp only [applyFinished_ok_iff, exists_and_left, exists_eq', and_true, Admits,
        tracks.bears_iff, tracks.going_iff]
      exact ⟨fun bears => ⟨going, bears⟩, fun admits => admits.2⟩
  | _ => cases later

theorem Tracks.follow_tracks (tracks : replay.Tracks ready count past)
    (later : record.prepares = false) (followed : replay.follow record = .ok after) :
    after.Tracks ready count (past ++ [record]) := by
  cases record with
  | commitIntent index => exact tracks.commitIntent_tracks followed
  | committed index => exact tracks.applyCommitted_tracks followed
  | rollbackIntent index => exact tracks.rollbackIntent_tracks followed
  | rolledBack index => exact tracks.applyRolledBack_tracks followed
  | finished outcome => exact tracks.applyFinished_tracks followed
  | _ => cases later

/-- Each record is decided by those before it. -/
theorem Tracks.decides (tracks : replay.Tracks ready count past) (record : Record)
    (later : ready = true ∨ past ≠ [] ∨ record.prepares = false) :
    Decides crates ready count past replay record := by
  by_cases finished : replay.phase = .finished
  · refine .inr ⟨fun admits => ?_, ?_⟩
    · have ended : ¬ Going past := fun going => tracks.going_iff.mp going finished
      cases record with
      | commitIntent => exact ended (forward_going admits.2.2.1)
      | committed => exact ended (forward_going admits.1)
      | rollbackIntent => exact ended admits.1
      | rolledBack => exact ended admits.1
      | finished => exact ended admits.1
      | _ => exact admits
    · unfold applyRecord
      rw [if_pos finished]
      exact ⟨_, rfl, rfl⟩
  · cases prepares : record.prepares with
    | true =>
        rw [prepares] at later
        have begun : ready = true ∨ past ≠ [] := by simpa using later
        have never : ¬ Admits ready count past record := by
          cases record with
          | header | operation | pathIntent | pathStaged | prepared => exact id
          | _ => cases prepares
        exact .inr ⟨never, refuses_preparing prepares (tracks.late begun)⟩
    | false =>
        have applies : applyRecord crates replay record = liftWorktree (replay.follow record) :=
          applyRecord_follow finished prepares
        cases followed : replay.follow record with
        | ok after =>
            rw [followed] at applies
            exact .inl ⟨(tracks.follow_iff finished prepares).mp ⟨after, followed⟩, after, applies,
              tracks.follow_tracks prepares followed, follow_keeps followed⟩
        | error error =>
            rw [followed] at applies
            refine .inr ⟨fun admits => ?_, error, corrupts_follow error followed, applies⟩
            obtain ⟨after, other⟩ := (tracks.follow_iff finished prepares).mpr admits
            rw [followed] at other
            cases other

variable (crates) in
/-- A replay that has taken the preparation takes exactly the records in this order,
and to any other it answers that the journal is corrupt. -/
theorem Tracks.applyRecords (tracks : replay.Tracks ready count past)
    (course : Course ready count past) (records : List Record)
    (later : ready = true ∨ past ≠ [] ∨ ∀ record ∈ records.head?, record.prepares = false) :
    (Course ready count (past ++ records) ∧ ∃ after,
      applyRecords crates replay records = pure after ∧ replay.Keeps after) ∨
    (¬ Course ready count (past ++ records) ∧ ∃ error : WorktreeError,
      error.code = .journalCorrupt ∧ Replay.applyRecords crates replay records = throw error) := by
  induction records generalizing past replay with
  | nil =>
      rw [List.append_nil]
      exact .inl ⟨course, replay, rfl, rfl, rfl, rfl⟩
  | cons record rest ih =>
      have split : past ++ record :: rest = past ++ [record] ++ rest := by simp
      rw [split]
      unfold Replay.applyRecords
      have decided : Decides crates ready count past replay record :=
        tracks.decides record (by simpa using later)
      rcases decided with ⟨admits, after, taken, goes, keeps⟩ | ⟨refused, error, corrupt, thrown⟩
      · rw [taken, pure_bind]
        rcases ih goes (course.snoc admits) (.inr (.inl (by simp))) with
          ⟨through, last, took, kept⟩ | refused
        · refine .inl ⟨through, last, took, ?_, ?_, ?_⟩
          · exact kept.expected.trans keeps.expected
          · exact kept.paths.trans keeps.paths
          · exact kept.prepared.trans keeps.prepared
        · exact .inr refused
      · rw [thrown]
        exact .inr ⟨fun course => refused (course_snoc_iff.mp course.init).2, error, corrupt, rfl⟩

/-! ### The preparation -/

end Replay

def Record.completes : Record → Bool
  | .prepared .. => true
  | _ => false

def Record.announces : Record → Bool
  | .pathIntent .. => true
  | _ => false

/-- The records up to the first that no preparation appends. -/
def preparation (records : List Record) : List Record :=
  records.takeWhile Record.prepares

/-- The records from there on. -/
def aftermath (records : List Record) : List Record :=
  records.dropWhile Record.prepares

namespace Replay

variable {T : Type} {crates : Crates T} {replay after : Replay} {base : List Record}
  {host : Host} {weather : Weather} {ready : Bool} {count : Nat}

/-- The replay after these records of a preparation. -/
structure Begins (crates : Crates T) (base : List Record) (replay : Replay) : Prop where
  tracks : replay.Tracks (base.any Record.completes) (base.countP Record.announces) []
  valid : replay.prepared = true →
    validateExpectedPaths crates replay.expectedPaths replay.paths = .ok ()

theorem new_begins (root : FsRoot) (options : WorktreeOptions) (header : Header) :
    Begins crates [] (new root options header) := by
  refine ⟨?_, fun impossible => by cases impossible⟩
  exact {
    standing := .waiting rfl rfl (.inl rfl)
    prepared := rfl
    paths := rfl
    announced := by simp [new]
    completed := by simp [new]
    reversing := by simp [new]
    reversed := by simp [new]
    latest := by simp [new]
    lowest := by simp [new]
    confirmed := by simp
    settled := by simp
    restored := by simp
    bounded := by simp
    silent := by simp
    unmoved := by simp }

/-- A step of the preparation, which announces, changes and restores nothing. -/
structure Advances (replay after : Replay) : Prop where
  announced : after.commitIntents = replay.commitIntents
  completed : after.committed = replay.committed
  reversing : after.rollbackIntents = replay.rollbackIntents
  reversed : after.rolledBack = replay.rolledBack
  latest : after.lastCommitIntent = replay.lastCommitIntent
  lowest : after.lastRollbackIntent = replay.lastRollbackIntent

theorem Tracks.advance {more : Nat} (tracks : replay.Tracks false count [])
    (advances : replay.Advances after) (phase : Standing ready [] after.phase)
    (prepared : after.prepared = ready) (paths : after.paths.length = more) :
    after.Tracks ready more [] where
  standing := phase
  prepared := prepared
  paths := paths
  announced := by
    rw [advances.announced]
    exact tracks.announced
  completed := by
    rw [advances.completed]
    exact tracks.completed
  reversing := by
    rw [advances.reversing]
    exact tracks.reversing
  reversed := by
    rw [advances.reversed]
    exact tracks.reversed
  latest := by
    rw [advances.latest]
    exact tracks.latest
  lowest := by
    rw [advances.lowest]
    exact tracks.lowest
  confirmed := tracks.confirmed
  settled := tracks.settled
  restored := tracks.restored
  bounded := fun _ among => absurd among List.not_mem_nil
  silent := by
    rw [advances.latest]
    exact tracks.silent
  unmoved := by
    rw [advances.lowest]
    exact tracks.unmoved

theorem Begins.step (begins : Begins crates base replay)
    (incomplete : base.any Record.completes = false)
    (advances : replay.Advances after) (preparing : Preparing after.phase)
    (prepared : after.prepared = replay.prepared) (unfinished : record.completes = false)
    (paths : after.paths.length = replay.paths.length + [record].countP Record.announces) :
    Begins crates (base ++ [record]) after := by
  obtain ⟨tracks, valid⟩ := begins
  rw [incomplete] at tracks
  have early : after.prepared = false := prepared.trans tracks.prepared
  refine ⟨?_, fun ready => ?_⟩
  · rw [List.any_append, incomplete, List.any_cons, unfinished, List.countP_append]
    refine tracks.advance advances (.waiting rfl rfl preparing) early ?_
    rw [paths, tracks.paths]
  · rw [early] at ready
    cases ready

theorem applyRecord_begins (begins : Begins crates base replay)
    (prepares : record.prepares = true) :
    Reads host weather (applyRecord crates replay record) (Begins crates (base ++ [record])) := by
  cases whole : base.any Record.completes with
  | true =>
      obtain ⟨error, _, thrown⟩ : ∃ error : WorktreeError, error.code = .journalCorrupt ∧
          applyRecord crates replay record = throw error :=
        refuses_preparing prepares (begins.tracks.late (.inl whole))
      rw [thrown]
      exact Task.yields_throw _
  | false =>
      unfold applyRecord
      refine yields_check fun _ => ?_
      cases record with
      | header => exact Task.yields_throw _
      | operation =>
          refine liftWorktree_reads fun after applied => ?_
          obtain ⟨phase, _, _, _, rfl⟩ := applyOperation_ok applied
          exact begins.step whole ⟨rfl, rfl, rfl, rfl, rfl, rfl⟩ (.inl phase) rfl rfl rfl
      | pathIntent index path before after stageName backupName =>
          dsimp only
          unfold pathIntent
          refine Task.Yields.bind (liftWorktree_reads fun _ => id) fun found checked => ?_
          obtain ⟨middle, before', after'⟩ := found
          obtain ⟨_, pathKeys, same⟩ := checkIntent_ok checked
          dsimp only at same
          subst same
          refine Task.Yields.bind (Task.yields_adapt (openTarget_reads _ _)) fun access _ => ?_
          refine Task.yields_pure _ (begins.step whole ⟨rfl, rfl, rfl, rfl, rfl, rfl⟩
            (.inr (.inl rfl)) rfl rfl ?_)
          simp [Record.announces]
      | pathStaged =>
          refine liftWorktree_reads fun after applied => ?_
          obtain ⟨_, path, _, _, _, _, rfl⟩ := pathStaged_ok applied
          refine begins.step whole ⟨rfl, rfl, rfl, rfl, rfl, rfl⟩ (.inr (.inr rfl)) rfl rfl ?_
          rw [List.length_set]
          rfl
      | prepared operationCount pathCount =>
          refine liftWorktree_reads fun after applied => ?_
          have checked := applied
          obtain ⟨_, _, _, rfl⟩ := applyPrepared_ok applied
          obtain ⟨tracks, _⟩ := begins
          rw [whole] at tracks
          refine ⟨?_, fun _ => ?_⟩
          · rw [List.any_append, List.countP_append]
            exact tracks.advance ⟨rfl, rfl, rfl, rfl, rfl, rfl⟩
              (.prepared rfl (by simp [Record.completes]) rfl)
              (by simp [Record.completes]) tracks.paths
          · unfold applyPrepared at checked
            simp only [bind_ok_iff] at checked
            obtain ⟨_, _, _, _, _, valid, _⟩ := checked
            exact valid
      | _ => cases prepares

theorem applyRecords_begins (begins : Begins crates base replay) (records : List Record)
    (prepares : ∀ record ∈ records, record.prepares = true) :
    Reads host weather (applyRecords crates replay records) (Begins crates (base ++ records)) := by
  induction records generalizing base replay with
  | nil =>
      rw [List.append_nil]
      exact Task.yields_pure _ begins
  | cons record rest ih =>
      refine Task.Yields.bind (applyRecord_begins begins (prepares record List.mem_cons_self))
        fun middle so_far => ?_
      have tail := ih so_far fun other among => prepares other (List.mem_cons_of_mem _ among)
      rw [List.append_assoc] at tail
      exact tail

theorem applyRecords_append (first second : List Record) :
    applyRecords crates replay (first ++ second) =
      applyRecords crates replay first >>= fun middle => applyRecords crates middle second := by
  induction first generalizing replay with
  | nil => rfl
  | cons record rest ih =>
      simp only [List.cons_append, applyRecords, ih, bind_assoc]

theorem finish_valid (valid : replay.prepared = true →
    validateExpectedPaths crates replay.expectedPaths replay.paths = .ok ()) :
    ∃ parsed, replay.finish crates = .ok parsed := by
  unfold finish
  split
  · next ready =>
      rw [valid ready]
      exact ⟨_, rfl⟩
  · exact ⟨_, rfl⟩

theorem Keeps.finish (keeps : replay.Keeps after) (valid : replay.prepared = true →
    validateExpectedPaths crates replay.expectedPaths replay.paths = .ok ()) :
    ∃ parsed, after.finish crates = .ok parsed := by
  refine finish_valid fun ready => ?_
  rw [keeps.prepared] at ready
  rw [keeps.expected, keeps.paths]
  exact valid ready

end Replay

/-! ### The whole journal -/

section

variable {T : Type} (crates : Crates T) (host : Host) (weather : Weather) (root : FsRoot)
  (options : WorktreeOptions) (start finish : World)

/-- This may come of parsing a journal of these records. -/
def Parses (records : List Record) (result : Except WorktreeError ParsedJournal) : Prop :=
  (parseJournal crates root (entriesFrom 0 records) options).run.Returns (fsMachine host weather)
    start result finish

/-- The records after the preparation come in the order of a commit, of its
restoration and of its end. -/
def InOrder (records : List Record) : Prop :=
  Course ((preparation records).any Record.completes)
    ((preparation records).countP Record.announces) (aftermath records)

variable {crates host weather root options start finish} {records : List Record}

theorem parseHeader_preparation : Replay.parseHeader (entriesFrom 0 records) options =
    Replay.parseHeader (entriesFrom 0 (preparation records)) options := by
  cases records with
  | nil => rfl
  | cons record rest => cases record <;> rfl

theorem head_aftermath : ∀ record ∈ (aftermath records).head?, record.prepares = false := by
  intro record first
  have refused := List.head?_dropWhile_not Record.prepares records
  rw [show (records.dropWhile Record.prepares).head? = some record from first] at refused
  simpa using refused

variable (crates) in
/-- What a replay makes of the rest of a journal. -/
def Replay.conclude (replay : Replay) (records : List Record) : Action ParsedJournal := do
  let after ← applyRecords crates replay records
  liftWorktree (after.finish crates)

theorem Replay.Begins.outcome {replay : Replay}
    (begins : Replay.Begins crates (preparation records) replay) :
    ∃ result, replay.conclude crates (aftermath records) = liftWorktree result ∧
      (InOrder records ∧ (∃ parsed, result = .ok parsed) ∨
        ¬ InOrder records ∧ ∃ error : WorktreeError, error.code = .journalCorrupt ∧
          result = .error error) := by
  have decided := begins.tracks.applyRecords crates .nil (aftermath records)
    (.inr (.inr head_aftermath))
  rw [List.nil_append] at decided
  unfold conclude
  rcases decided with ⟨course, after, taken, keeps⟩ | ⟨disorder, error, corrupt, thrown⟩
  · obtain ⟨parsed, finished⟩ := keeps.finish begins.valid
    refine ⟨.ok parsed, ?_, .inl ⟨course, parsed, rfl⟩⟩
    rw [taken, pure_bind, finished]
  · refine ⟨.error error, ?_, .inr ⟨disorder, error, corrupt, rfl⟩⟩
    rw [thrown]
    rfl

/-- The preparation alone is always concluded. -/
theorem Replay.Begins.concludes {base : List Record} {replay : Replay}
    (begins : Replay.Begins crates base replay) :
    ∃ parsed, replay.conclude crates [] = liftWorktree (.ok parsed) := by
  obtain ⟨parsed, finished⟩ := finish_valid begins.valid
  refine ⟨parsed, ?_⟩
  rw [← finished]
  rfl

/-- What a parse does, once the header is read. -/
theorem parseJournal_headed {header : Replay.Header}
    (headed : Replay.parseHeader (entriesFrom 0 records) options = .ok header) :
    parseJournal crates root (entriesFrom 0 records) options = (do
      let replay ← Replay.applyRecords crates (.new root options header) (preparation records).tail
      replay.conclude crates (aftermath records)) := by
  have split : records.tail = (preparation records).tail ++ aftermath records := by
    cases records with
    | nil => rfl
    | cons record rest =>
        cases record with
        | header => exact (List.takeWhile_append_dropWhile).symm
        | _ => cases headed
  unfold parseJournal
  rw [headed, Logbook.entriesFrom_tail, split]
  change Replay.applyRecords crates (.new root options header) _ >>= _ = _
  rw [Replay.applyRecords_append, bind_assoc]
  rfl

theorem preparation_preparation : preparation (preparation records) = preparation records :=
  List.takeWhile_idem

theorem preparation_prepares : ∀ record ∈ preparation records, record.prepares = true :=
  fun _ => List.mem_takeWhile_imp

theorem aftermath_preparation : aftermath (preparation records) = [] :=
  List.dropWhile_eq_nil_iff.mpr preparation_prepares

theorem parseJournal_headless {error : WorktreeError}
    (headless : Replay.parseHeader (entriesFrom 0 records) options = .error error) :
    parseJournal crates root (entriesFrom 0 records) options = throw error := by
  unfold parseJournal
  rw [headless]
  rfl

/-- What the preparation alone comes to, once the header is read. -/
theorem returned_begins {header : Replay.Header} {replay : Replay}
    (headed : Replay.parseHeader (entriesFrom 0 records) options = .ok header)
    (returned : (Replay.applyRecords crates (.new root options header)
      (preparation records).tail).run.Returns (fsMachine host weather) start (.ok replay) finish) :
    finish = start ∧ Replay.Begins crates (preparation records) replay := by
  have reads : Reads host weather (Replay.applyRecords crates (.new root options header)
      (preparation records).tail) (Replay.Begins crates ([] ++ (preparation records).tail)) :=
    Replay.applyRecords_begins (Replay.new_begins root options header) _ fun record among =>
      preparation_prepares record (List.mem_of_mem_tail among)
  have meets : Task.Meets (fsMachine host weather) (fun _ _ => True) _ _ start :=
    reads.meets fun _ _ => trivial
  obtain ⟨still, begins⟩ := meets.returns returned
  have came := begins replay rfl
  refine ⟨still, ?_⟩
  cases records with
  | nil => exact came
  | cons record rest =>
      cases record with
      | header => exact ⟨came.tracks, came.valid⟩
      | _ => cases headed

/-- A parse is lost with the preparation, or it ends as the records after it say. -/
theorem parses_headed {header : Replay.Header}
    (headed : Replay.parseHeader (entriesFrom 0 records) options = .ok header)
    (result : Except WorktreeError ParsedJournal) :
    Parses crates host weather root options start finish records result ↔
      (∃ error, (Replay.applyRecords crates (.new root options header)
        (preparation records).tail).run.Returns (fsMachine host weather) start (.error error)
        finish ∧ result = .error error) ∨
      ∃ replay, (Replay.applyRecords crates (.new root options header)
        (preparation records).tail).run.Returns (fsMachine host weather) start (.ok replay)
        finish ∧ replay.conclude crates (aftermath records) = liftWorktree result := by
  unfold Parses
  rw [parseJournal_headed headed, Task.returns_except_bind]
  refine or_congr_right ⟨?_, ?_⟩
  · rintro ⟨replay, middle, returned, rest⟩
    obtain ⟨ended, same, _⟩ := (returned_begins headed returned).2.outcome
    rw [same] at rest
    obtain ⟨rfl, rfl⟩ := rest
    exact ⟨replay, returned, same⟩
  · rintro ⟨replay, returned, same⟩
    exact ⟨replay, finish, returned, by rw [same]; exact ⟨rfl, rfl⟩⟩

theorem liftWorktree_inj {α : Type} {first second : Except WorktreeError α}
    (same : liftWorktree first = liftWorktree second) : first = second := by
  have inner : (Task.done first : Task FsOp _) = Task.done second := same
  exact Task.done.inj inner

theorem not_parses_headless {error : WorktreeError}
    (headless : Replay.parseHeader (entriesFrom 0 records) options = .error error) :
    ¬ ∃ parsed, Parses crates host weather root options start finish records (.ok parsed) := by
  unfold Parses
  rw [parseJournal_headless headless]
  rintro ⟨parsed, impossible, _⟩
  cases impossible

theorem parses_ok_iff :
    (∃ parsed, Parses crates host weather root options start finish records (.ok parsed)) ↔
      (∃ parsed, Parses crates host weather root options start finish (preparation records)
        (.ok parsed)) ∧ InOrder records := by
  cases headed : Replay.parseHeader (entriesFrom 0 records) options with
  | error error =>
      have alone := headed
      rw [parseHeader_preparation] at alone
      exact iff_of_false (not_parses_headless headed) fun both => not_parses_headless alone both.1
  | ok header =>
      have alone := headed
      rw [parseHeader_preparation] at alone
      have base : ∀ result, Parses crates host weather root options start finish
          (preparation records) result ↔ _ := parses_headed alone
      rw [preparation_preparation, aftermath_preparation] at base
      constructor
      · rintro ⟨parsed, parses⟩
        rcases (parses_headed headed _).mp parses with ⟨_, _, impossible⟩ |
          ⟨replay, returned, same⟩
        · cases impossible
        · have begins := (returned_begins headed returned).2
          obtain ⟨first, alone⟩ := begins.concludes
          obtain ⟨ended, concluded, ⟨order, _⟩ | ⟨_, error, _, rfl⟩⟩ := begins.outcome
          · exact ⟨⟨first, (base _).mpr (.inr ⟨replay, returned, alone⟩)⟩, order⟩
          · rw [same] at concluded
            cases liftWorktree_inj concluded
      · rintro ⟨⟨_, parses⟩, order⟩
        rcases (base _).mp parses with ⟨_, _, impossible⟩ | ⟨replay, returned, _⟩
        · cases impossible
        · obtain ⟨ended, concluded, ⟨_, parsed, rfl⟩ | ⟨disorder, _⟩⟩ :=
            (returned_begins headed returned).2.outcome
          · exact ⟨parsed, (parses_headed headed _).mpr (.inr ⟨replay, returned, concluded⟩)⟩
          · exact absurd order disorder

theorem parses_corrupt_iff :
    (∃ error : WorktreeError, error.code = .journalCorrupt ∧
        Parses crates host weather root options start finish records (.error error)) ↔
      (∃ error : WorktreeError, error.code = .journalCorrupt ∧
        Parses crates host weather root options start finish (preparation records)
          (.error error)) ∨
      (∃ parsed, Parses crates host weather root options start finish (preparation records)
        (.ok parsed)) ∧ ¬ InOrder records := by
  cases headed : Replay.parseHeader (entriesFrom 0 records) options with
  | error error =>
      have alone := headed
      rw [parseHeader_preparation] at alone
      have never : ¬ ∃ parsed, Parses crates host weather root options start finish
          (preparation records) (.ok parsed) := not_parses_headless alone
      unfold Parses at never ⊢
      rw [parseJournal_headless headed, parseJournal_headless alone]
      rw [parseJournal_headless alone] at never
      exact ⟨.inl, fun either => either.resolve_right fun both => never both.1⟩
  | ok header =>
      have alone := headed
      rw [parseHeader_preparation] at alone
      have base : ∀ result, Parses crates host weather root options start finish
          (preparation records) result ↔ _ := parses_headed alone
      rw [preparation_preparation, aftermath_preparation] at base
      constructor
      · rintro ⟨error, corrupt, parses⟩
        rcases (parses_headed headed _).mp parses with lost | ⟨replay, returned, same⟩
        · exact .inl ⟨error, corrupt, (base _).mpr (.inl lost)⟩
        · have begins := (returned_begins headed returned).2
          obtain ⟨first, alone⟩ := begins.concludes
          obtain ⟨ended, concluded, ⟨_, parsed, rfl⟩ | ⟨disorder, _⟩⟩ := begins.outcome
          · rw [same] at concluded
            cases liftWorktree_inj concluded
          · exact .inr ⟨⟨first, (base _).mpr (.inr ⟨replay, returned, alone⟩)⟩, disorder⟩
      · rintro (⟨error, corrupt, parses⟩ | ⟨⟨_, parses⟩, disorder⟩)
        · rcases (base _).mp parses with lost | ⟨replay, returned, same⟩
          · exact ⟨error, corrupt, (parses_headed headed _).mpr (.inl lost)⟩
          · obtain ⟨first, alone⟩ := (returned_begins headed returned).2.concludes
            rw [same] at alone
            cases liftWorktree_inj alone
        · rcases (base _).mp parses with ⟨_, _, impossible⟩ | ⟨replay, returned, _⟩
          · cases impossible
          · obtain ⟨ended, concluded, ⟨order, _⟩ | ⟨_, error, corrupt, rfl⟩⟩ :=
              (returned_begins headed returned).2.outcome
            · exact absurd order disorder
            · exact ⟨error, corrupt,
                (parses_headed headed _).mpr (.inr ⟨replay, returned, concluded⟩)⟩

/-- Whatever a journal holds, it is parsed when its preparation is and the records
after that are in order; and it is found corrupt when its preparation is or they
are not. -/
theorem parses_iff_inOrder :
    ((∃ parsed, Parses crates host weather root options start finish records (.ok parsed)) ↔
      (∃ parsed, Parses crates host weather root options start finish (preparation records)
        (.ok parsed)) ∧ InOrder records) ∧
    ((∃ error : WorktreeError, error.code = .journalCorrupt ∧
        Parses crates host weather root options start finish records (.error error)) ↔
      (∃ error : WorktreeError, error.code = .journalCorrupt ∧
        Parses crates host weather root options start finish (preparation records)
          (.error error)) ∨
      (∃ parsed, Parses crates host weather root options start finish (preparation records)
        (.ok parsed)) ∧ ¬ InOrder records) :=
  ⟨parses_ok_iff, parses_corrupt_iff⟩

end

end Worktree
