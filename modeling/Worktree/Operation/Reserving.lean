import Mathlib.Algebra.Order.BigOperators.Group.List
import Mathlib.Algebra.Order.Group.Nat
import Mathlib.Data.List.Perm.Subperm
import Worktree.Operation.Leaving
import Worktree.Operation.Pending
import Worktree.Undo.Flagging
/-
Whether a prepared journal has room for whatever may still be appended to it.

No record is ever appended twice, and each is one that a complete commit and its
complete rollback append as well; so it is enough to have room for these.
-/

namespace Worktree

open CrashLogic

/-! ### The records after the preparation -/

/-- The records that only a preparation appends. -/
def Record.prepares : Record → Bool
  | .header .. | .operation .. | .pathIntent .. | .pathStaged .. | .prepared .. => true
  | _ => false

/-- Of the outcomes the longest. -/
def Record.settled : Record → Record
  | .finished _ => .finished .rolledBack
  | record => record

theorem mem_committing {count : Nat} {record : Record} :
    record ∈ committing count ↔
      ∃ index, index < count ∧ (record = .commitIntent index ∨ record = .committed index) := by
  induction count with
  | zero => simp [committing]
  | succ count ih =>
      rw [committing, List.mem_append, ih]
      constructor
      · rintro (⟨index, bound, kind⟩ | last)
        · exact ⟨index, by omega, kind⟩
        · simp only [List.mem_cons, List.not_mem_nil, or_false] at last
          exact ⟨count, by omega, last⟩
      · rintro ⟨index, bound, kind⟩
        by_cases last : index = count
        · subst last
          right
          simpa using kind
        · exact .inl ⟨index, by omega, kind⟩

theorem mem_rolling {top count : Nat} (within : count ≤ top) {record : Record} :
    record ∈ rolling top count ↔ ∃ index, top - count ≤ index ∧ index < top ∧
      (record = .rollbackIntent index ∨ record = .rolledBack index) := by
  induction count with
  | zero =>
      simp only [rolling, List.not_mem_nil, false_iff, not_exists, not_and]
      omega
  | succ count ih =>
      rw [rolling, List.mem_append, ih (by omega)]
      constructor
      · rintro (⟨index, above, bound, kind⟩ | last)
        · exact ⟨index, by omega, bound, kind⟩
        · simp only [List.mem_cons, List.not_mem_nil, or_false] at last
          exact ⟨top - 1 - count, by omega, by omega, last⟩
      · rintro ⟨index, above, bound, kind⟩
        by_cases last : index = top - 1 - count
        · subst last
          right
          simpa using kind
        · exact .inl ⟨index, by omega, bound, kind⟩

/-- A complete commit of this many paths, rolled back completely by a recovery. -/
def reversed (count : Nat) : List Record :=
  committing count ++ rolling count count ++ [.finished .rolledBack]

/-- The records of one path, after its preparation. -/
def OfPath (index : Nat) (record : Record) : Prop :=
  record = .commitIntent index ∨ record = .committed index ∨
    record = .rollbackIntent index ∨ record = .rolledBack index

theorem mem_reversed {count index : Nat} {record : Record} (bound : index < count)
    (kind : OfPath index record) : record ∈ reversed count := by
  refine List.mem_append_left _ (List.mem_append.mpr ?_)
  rcases kind with same | same | same | same
  · exact .inl (mem_committing.mpr ⟨index, bound, .inl same⟩)
  · exact .inl (mem_committing.mpr ⟨index, bound, .inr same⟩)
  · exact .inr ((mem_rolling (Nat.le_refl _)).mpr ⟨index, by omega, bound, .inl same⟩)
  · exact .inr ((mem_rolling (Nat.le_refl _)).mpr ⟨index, by omega, bound, .inr same⟩)

/-- None of them comes twice, and each is one of those. -/
structure Grows (count : Nat) (tail : List Record) : Prop where
  nodup : (tail.map Record.settled).Nodup
  among : ∀ record ∈ tail, record.settled ∈ reversed count

variable {count index : Nat} {tail : List Record} {record : Record}

theorem grows_nil : Grows count [] :=
  ⟨List.nodup_nil, fun _ impossible => absurd impossible List.not_mem_nil⟩

theorem Grows.snoc (grows : Grows count tail)
    (fresh : ∀ other ∈ tail, other.settled ≠ record.settled)
    (among : record.settled ∈ reversed count) : Grows count (tail ++ [record]) := by
  refine ⟨?_, fun other found => ?_⟩
  · rw [List.map_append, List.map_singleton, ← List.concat_eq_append]
    refine grows.nodup.concat fun again => ?_
    obtain ⟨other, found, same⟩ := List.mem_map.mp again
    exact fresh other found same
  · rcases List.mem_append.mp found with earlier | last
    · exact grows.among other earlier
    · rw [List.mem_singleton.mp last]
      exact among

theorem OfPath.settled (kind : OfPath index record) : record.settled = record := by
  rcases kind with rfl | rfl | rfl | rfl <;> rfl

theorem OfPath.eq_of_settled {other : Record} (kind : OfPath index record)
    (same : other.settled = record.settled) : other = record := by
  rw [kind.settled] at same
  cases other with
  | finished outcome => rcases kind with rfl | rfl | rfl | rfl <;> cases same
  | _ => exact same

/-- One more record of a path. -/
theorem Grows.path (grows : Grows count tail) (bound : index < count) (kind : OfPath index record)
    (fresh : record ∉ tail) : Grows count (tail ++ [record]) := by
  refine grows.snoc (fun other found same => ?_) ?_
  · rw [kind.eq_of_settled same] at found
    exact fresh found
  · rw [kind.settled]
    exact mem_reversed bound kind

theorem Grows.bound (grows : Grows count tail) (kind : OfPath index record)
    (among : record ∈ tail) : index < count := by
  have found := grows.among record among
  rw [kind.settled] at found
  rcases List.mem_append.mp found with changes | last
  · rcases List.mem_append.mp changes with forward | backward
    · obtain ⟨other, bound, same⟩ := mem_committing.mp forward
      rcases kind with rfl | rfl | rfl | rfl <;> rcases same with same | same <;> cases same <;>
        exact bound
    · obtain ⟨other, _, bound, same⟩ := (mem_rolling (Nat.le_refl _)).mp backward
      rcases kind with rfl | rfl | rfl | rfl <;> rcases same with same | same <;> cases same <;>
        exact bound
  · rcases kind with rfl | rfl | rfl | rfl <;> cases List.mem_singleton.mp last

/-- The end of the journal. -/
theorem Grows.finish (grows : Grows count tail) (going : ∀ outcome, .finished outcome ∉ tail)
    (outcome : FinishOutcome) : Grows count (tail ++ [.finished outcome]) := by
  refine grows.snoc (fun other found same => ?_) (List.mem_append_right _ List.mem_cons_self)
  cases other with
  | finished ended => exact going ended found
  | _ => cases same

/-! ### What they cost -/

section

variable {T : Type} (crates : Crates T) (schema : JournalSchema)

/-- What a line takes besides its number. -/
def weight (record : Record) : Nat :=
  crates.storedCost schema.asStr record + 1

/-- The numbers of the lines take what they take, whatever the records are. -/
def numbering (seq : Nat) : Nat → Nat
  | 0 => 0
  | count + 1 => digits seq + numbering (seq + 1) count

theorem numbering_mono {seq count more : Nat} (fewer : count ≤ more) :
    numbering seq count ≤ numbering seq more := by
  induction count generalizing seq more with
  | zero => exact Nat.zero_le _
  | succ count ih =>
      cases more with
      | zero => exact absurd fewer (Nat.not_succ_le_zero _)
      | succ more => exact Nat.add_le_add_left (ih (Nat.le_of_succ_le_succ fewer)) _

theorem linesCost_eq (seq : Nat) (records : List Record) :
    linesCost crates schema seq records =
      (records.map (weight crates schema)).sum + numbering seq records.length := by
  induction records generalizing seq with
  | nil => rfl
  | cons record rest ih =>
      rw [linesCost, ih, List.map_cons, List.sum_cons, List.length_cons, numbering, weight]
      omega

theorem weight_settled (record : Record) :
    weight crates schema record ≤ weight crates schema record.settled := by
  cases record with
  | finished outcome => exact Nat.succ_le_succ (crates.storedCost_finished _ outcome)
  | _ => exact Nat.le_refl _

/-- Whatever is appended takes no more than a complete commit rolled back. -/
theorem Grows.cost (grows : Grows count tail) (base : List Record) :
    linesCost crates schema 0 (base ++ tail) ≤
      linesCost crates schema 0 (base ++ reversed count) := by
  have within : (tail.map Record.settled).Subperm (reversed count) := by
    refine List.Nodup.subperm grows.nodup fun record found => ?_
    obtain ⟨other, among, rfl⟩ := List.mem_map.mp found
    exact grows.among other among
  have shorter : tail.length ≤ (reversed count).length := by
    have counted := within.length_le
    rwa [List.length_map] at counted
  have heavier : (tail.map (weight crates schema)).sum ≤
      ((reversed count).map (weight crates schema)).sum := by
    calc (tail.map (weight crates schema)).sum
        ≤ (tail.map fun record => weight crates schema record.settled).sum :=
          List.sum_le_sum fun record _ => weight_settled crates schema record
      _ = ((tail.map Record.settled).map (weight crates schema)).sum := by
          rw [List.map_map]
          rfl
      _ ≤ ((reversed count).map (weight crates schema)).sum := by
          obtain ⟨arranged, same, kept⟩ := within
          rw [← (same.map (weight crates schema)).sum_eq]
          exact (kept.map (weight crates schema)).sum_le_sum fun _ _ => Nat.zero_le _
  rw [linesCost_append, linesCost_append, linesCost_eq crates schema _ tail,
    linesCost_eq crates schema _ (reversed count)]
  exact Nat.add_le_add_left (Nat.add_le_add heavier (numbering_mono shorter)) _

end

/-! ### Commits -/

theorem grows_committing (bound : index ≤ count) : Grows count (committing index) := by
  induction index with
  | zero => exact grows_nil
  | succ index ih =>
      have announced : Grows count (committing index ++ [.commitIntent index]) := by
        refine (ih (by omega)).path bound (.inl rfl) fun again => ?_
        obtain ⟨other, below, same | same⟩ := mem_committing.mp again
        · cases same
          exact absurd below (Nat.lt_irrefl _)
        · cases same
      have recorded := announced.path bound
        (show OfPath index (.committed index) from .inr (.inl rfl)) fun again => ?_
      · rw [List.append_assoc] at recorded
        exact recorded
      · rcases List.mem_append.mp again with earlier | last
        · obtain ⟨other, below, same | same⟩ := mem_committing.mp earlier
          · cases same
          · cases same
            exact absurd below (Nat.lt_irrefl _)
        · cases List.mem_singleton.mp last

theorem grows_announcing (bound : index < count) :
    Grows count (committing index ++ [.commitIntent index]) := by
  refine (grows_committing (Nat.le_of_lt bound)).path bound (.inl rfl) fun again => ?_
  obtain ⟨other, below, same | same⟩ := mem_committing.mp again
  · cases same
    exact absurd below (Nat.lt_irrefl _)
  · cases same

/-- The records of a commit that restores nothing yet. -/
def Forward (tail : List Record) : Prop :=
  ∀ record ∈ tail, ∃ index, record = .commitIntent index ∨ record = .committed index

theorem forward_committing (count : Nat) : Forward (committing count) := by
  intro record among
  obtain ⟨index, _, kind⟩ := mem_committing.mp among
  exact ⟨index, kind⟩

theorem forward_announcing (index : Nat) : Forward (committing index ++ [.commitIntent index]) := by
  intro record among
  rcases List.mem_append.mp among with earlier | last
  · exact forward_committing index record earlier
  · exact ⟨index, .inl (List.mem_singleton.mp last)⟩

variable {top done : Nat}

theorem rolling_fresh (forward : Forward tail) (bound : done < top)
    (kind : record = .rollbackIntent (top - 1 - done) ∨ record = .rolledBack (top - 1 - done)) :
    record ∉ tail ++ rolling top done := by
  intro among
  rcases List.mem_append.mp among with earlier | later
  · obtain ⟨index, same⟩ := forward record earlier
    rcases kind with rfl | rfl <;> rcases same with same | same <;> cases same
  · obtain ⟨index, above, below, same⟩ := (mem_rolling (Nat.le_of_lt bound)).mp later
    have other : index ≠ top - 1 - done := by omega
    rcases kind with rfl | rfl <;> rcases same with same | same <;> cases same <;> exact other rfl

theorem Grows.reverse (grows : Grows count (tail ++ rolling top done)) (forward : Forward tail)
    (within : top ≤ count) (bound : done < top) :
    Grows count (tail ++ rolling top done ++ [.rollbackIntent (top - 1 - done)]) :=
  grows.path (show top - 1 - done < count by omega) (.inr (.inr (.inl rfl)))
    (rolling_fresh forward bound (.inl rfl))

theorem Grows.rolling (grows : Grows count tail) (forward : Forward tail) (within : top ≤ count)
    (bound : done ≤ top) : Grows count (tail ++ rolling top done) := by
  induction done with
  | zero =>
      rw [Worktree.rolling, List.append_nil]
      exact grows
  | succ done ih =>
      have announced := (ih (by omega)).reverse forward within bound
      have restored := announced.path (show top - 1 - done < count by omega)
        (show OfPath (top - 1 - done) (.rolledBack (top - 1 - done)) from .inr (.inr (.inr rfl)))
        fun again => ?_
      · rw [Worktree.rolling]
        simpa using restored
      · rcases List.mem_append.mp again with earlier | last
        · exact rolling_fresh forward bound (.inr rfl) earlier
        · cases List.mem_singleton.mp last

theorem rolling_going (forward : Forward tail) (bound : done ≤ top) (outcome : FinishOutcome) :
    .finished outcome ∉ tail ++ rolling top done := by
  intro among
  rcases List.mem_append.mp among with earlier | later
  · obtain ⟨index, same | same⟩ := forward _ earlier <;> cases same
  · obtain ⟨index, _, _, same | same⟩ := (mem_rolling bound).mp later <;> cases same

namespace Logbook

variable {T : Type} {crates : Crates T} {book : Logbook crates} {base : List Record}

/-- Only such records are safe after those of the preparation, and there is room
for all of them. -/
structure Reserves (book : Logbook crates) (base : List Record) (count : Nat) : Prop where
  begun : base ≠ []
  safe : ∀ records, book.safe records ↔ ∃ tail, records = base ++ tail ∧ Grows count tail
  room : linesCost crates book.schema 0 (base ++ reversed count) ≤ book.maxBytes

theorem Reserves.takes (reserves : book.Reserves base count) (body : record.isHeader = false)
    (grows : Grows count (tail ++ [record])) : book.Takes False (base ++ tail) record := by
  refine ⟨⟨body, fun empty => reserves.begun (List.append_eq_nil_iff.mp empty).1⟩, ?_, .inl ?_⟩
  · rw [List.append_assoc]
    exact (reserves.safe _).mpr ⟨_, rfl, grows⟩
  · rw [List.append_assoc]
    exact (grows.cost crates book.schema base).trans reserves.room

theorem Reserves.commits (reserves : book.Reserves base count) :
    book.Commits False base count := by
  have ends := fun outcome => (grows_committing (Nat.le_refl count)).finish (fun ended among => by
    obtain ⟨index, same | same⟩ := forward_committing count _ among <;> cases same) outcome
  refine ⟨fun index bound => ?_, fun index bound => ?_, ?_, ?_⟩
  · exact reserves.takes rfl (grows_announcing bound)
  · have recorded := grows_committing bound
    rw [committing] at recorded
    rw [List.append_assoc]
    exact reserves.takes rfl (by simpa using recorded)
  · exact reserves.takes rfl (ends .committed)
  · have alone : Grows count ([] ++ [.finished .aborted]) :=
      grows_nil.finish (fun _ impossible => absurd impossible List.not_mem_nil) .aborted
    have aborted := reserves.takes rfl alone
    rwa [List.append_nil] at aborted

theorem Reserves.restores (reserves : book.Reserves base count) (grows : Grows count tail)
    (forward : Forward tail) (within : top ≤ count) : book.Restores False (base ++ tail) top := by
  refine ⟨fun done bound => ?_, fun done bound => ?_, ?_⟩
  · rw [List.append_assoc]
    exact reserves.takes rfl
      ((grows.rolling forward within (Nat.le_of_lt bound)).reverse forward within bound)
  · have restored := grows.rolling forward within bound
    rw [rolling] at restored
    rw [List.append_assoc, List.append_assoc]
    exact reserves.takes rfl (by simpa using restored)
  · rw [List.append_assoc]
    exact reserves.takes rfl ((grows.rolling forward within (Nat.le_refl _)).finish
      (rolling_going forward (Nat.le_refl _)) _)

theorem Reserves.reverts (reserves : book.Reserves base count) :
    book.Reverts False base count := by
  refine ⟨fun index bound => ?_, fun index bound => ?_, fun index bound => ?_⟩
  · exact reserves.restores (grows_committing (Nat.le_of_lt bound)) (forward_committing index)
      (Nat.le_of_lt bound)
  · rw [List.append_assoc]
    exact reserves.restores (grows_announcing bound) (forward_announcing index)
      (Nat.le_of_lt bound)
  · rw [List.append_assoc]
    exact reserves.restores (grows_announcing bound) (forward_announcing index) bound

/-! ### Recoveries -/

/-- The records of the preparation, none of which names the journal as staged. -/
structure Prepares (book : Logbook crates) (base : List Record) : Prop where
  current : book.schema = .current
  prepares : ∀ record ∈ base, record.prepares = true
  foreign : ∀ index identity backup, .pathStaged index (some identity) backup ∈ base →
    identity.inode ≠ book.file

/-- The records while a recovery has settled this many paths, the latest first. -/
def Resuming (parsed : ParsedJournal) (base : List Record) (count settled : Nat)
    (records : List Record) : Prop :=
  ∃ tail, records = base ++ tail ∧ Grows count tail ∧
    (∀ outcome, .finished outcome ∉ tail) ∧
    ∀ index, index + settled < parsed.paths.length →
      (.rollbackIntent index ∈ tail ↔ index ∈ parsed.rollbackIntents) ∧
      (.rolledBack index ∈ tail ↔ index ∈ parsed.rolledBack)

variable {parsed : ParsedJournal} {settled : Nat} {records : List Record}

theorem Prepares.mem_tail (prepares : book.Prepares base) (begun : base ≠ [])
    (later : record.prepares = false) : record ∈ (base ++ tail).tail ↔ record ∈ tail := by
  rw [List.tail_append_of_ne_nil begun, List.mem_append]
  constructor
  · rintro (earlier | found)
    · rw [prepares.prepares record (List.mem_of_mem_tail earlier)] at later
      cases later
    · exact found
  · exact .inr

/-- A recovery that comes to a path it has to restore. -/
theorem Resuming.pending (resuming : Resuming parsed base count settled records)
    (place : parsed.paths.length = settled + index + 1) (bound : index < count)
    (reserves : book.Reserves base count) (fresh : index ∉ parsed.rolledBack) :
    book.Takes False records (.rolledBack index) ∧
      Resuming parsed base count (settled + 1) (records ++ [.rolledBack index]) := by
  obtain ⟨tail, rfl, grows, going, told⟩ := resuming
  have restored := grows.path bound (.inr (.inr (.inr rfl))) fun again =>
    fresh ((told index (by omega)).2.mp again)
  refine ⟨reserves.takes rfl restored, _, List.append_assoc _ _ _, restored, ?_, ?_⟩
  · intro outcome among
    rcases List.mem_append.mp among with earlier | last
    · exact going outcome earlier
    · cases List.mem_singleton.mp last
  · intro other below
    have apart : other ≠ index := by omega
    have before := told other (by omega)
    simpa [apart] using before

theorem Reserves.resumes (reserves : book.Reserves base count) (prepares : book.Prepares base)
    (tells : parsed.Tells (base ++ tail).tail) (grows : Grows count tail) :
    book.Resumes False parsed (Resuming parsed base count) := by
  have within : ∀ index ∈ parsed.commitIntents, index < count := fun index announced =>
    grows.bound (.inl rfl)
      ((prepares.mem_tail reserves.begun rfl).mp ((tells.announced index).mp announced))
  refine {
    aborted := ?_
    skipped := ?_
    intent := ?_
    rolledBack := ?_
    pending := ?_
    finished := ?_ }
  · rintro _ _ _ _ ⟨tail, rfl, grows, going, _⟩
    exact reserves.takes rfl (grows.finish going _)
  · rintro settled index _ _ _ _ ⟨tail, same, grows, going, told⟩
    exact ⟨tail, same, grows, going, fun other below => told other (by omega)⟩
  · rintro settled index place announced fresh _ _ ⟨tail, rfl, grows, going, told⟩
    exact reserves.takes rfl (grows.path (within index announced) (.inr (.inr (.inl rfl)))
      fun again => fresh ((told index (by omega)).1.mp again))
  · rintro settled index place announced fresh _ _ ⟨tail, rfl, grows, going, told⟩
    have reversing := grows.path (within index announced) (.inr (.inr (.inl rfl)))
      fun again => fresh ((told index (by omega)).1.mp again)
    have restored := reversing.path (within index announced)
      (show OfPath index (.rolledBack index) from .inr (.inr (.inr rfl))) fun again => by
        rcases List.mem_append.mp again with earlier | last
        · exact fresh (tells.reversal ((told index (by omega)).2.mp earlier))
        · cases List.mem_singleton.mp last
    rw [List.append_assoc]
    refine ⟨reserves.takes rfl restored, _, List.append_assoc _ _ _, by simpa using restored,
      ?_, ?_⟩
    · intro outcome among
      rcases List.mem_append.mp among with earlier | last
      · exact going outcome earlier
      · simp at last
    · intro other below
      have apart : other ≠ index := by omega
      have before := told other (by omega)
      simpa [apart] using before
  · intro settled index place reversing fresh records _ resuming
    exact resuming.pending place (within index (tells.announcing reversing)) reserves fresh
  · rintro _ _ _ _ ⟨tail, rfl, grows, going, _⟩
    exact reserves.takes rfl (grows.finish going _)

/-- Every journal of such records that has not ended can be resumed. -/
theorem Reserves.resumable (reserves : book.Reserves base count) (prepares : book.Prepares base) :
    book.Resumable False := by
  refine ⟨prepares.current, fun records safe index identity backup staged => ?_,
    fun records parsed safe tells unfinished => ?_⟩
  · obtain ⟨tail, rfl, grows⟩ := (reserves.safe records).mp safe
    rcases List.mem_append.mp staged with earlier | later
    · exact prepares.foreign index identity backup earlier
    · have found := grows.among _ later
      rcases List.mem_append.mp found with changes | last
      · rcases List.mem_append.mp changes with forward | backward
        · obtain ⟨_, _, same | same⟩ := mem_committing.mp forward <;> cases same
        · obtain ⟨_, _, _, same | same⟩ := (mem_rolling (Nat.le_refl _)).mp backward <;> cases same
      · cases List.mem_singleton.mp last
  · obtain ⟨tail, rfl, grows⟩ := (reserves.safe records).mp safe
    refine ⟨Resuming parsed base count, ⟨tail, rfl, grows, fun outcome among => ?_,
      fun index _ => ⟨?_, ?_⟩⟩, reserves.resumes prepares tells grows⟩
    · have ended := (tells.outcomes outcome).mpr ((prepares.mem_tail reserves.begun rfl).mpr among)
      rw [unfinished] at ended
      cases ended
    · rw [tells.reversing, prepares.mem_tail reserves.begun rfl]
    · rw [tells.reversed, prepares.mem_tail reserves.begun rfl]

end Logbook

/-! ### The runs of a prepared transaction -/

section

variable {T : Type} (crates : Crates T) (host : Host) (weather : Weather)
  (transaction : PreparedWorktreeTransaction)

/-- The journal of the transaction, after the records of its preparation. -/
def PreparedWorktreeTransaction.reserve (base : List Record)
    (bounded : transaction.journal.maxBytes < u64Max) : Logbook crates where
  slot := host.slot transaction.control.dir operationJournal
  file := transaction.journal.file
  schema := transaction.journal.schema
  maxBytes := transaction.journal.maxBytes
  bounded := bounded
  safe := fun records =>
    ∃ tail, records = base ++ tail ∧ Grows transaction.paths.length tail

/-- What a preparation leaves: a journal of its records, in step with the writer, to
which the root leads; and paths of which none is the journal. -/
structure ReadyHere (base : List Record) (world : World) : Prop where
  bounded : transaction.journal.maxBytes < u64Max
  journal : (transaction.reserve crates host base bounded).InStep base transaction.journal world
  begun : base ≠ []
  prepares : (transaction.reserve crates host base bounded).Prepares base
  apart : ∀ path ∈ transaction.paths,
    (transaction.reserve crates host base bounded).Apart host path
  indexed : Logbook.Indexed transaction.paths
  limit : transaction.options.limits.maxJournalBytes = transaction.journal.maxBytes
  controls : FsRoot.Controls host transaction.root transaction.control.dir world

/-- What its owner may do with a prepared transaction. -/
inductive Ending
  | commit
  | commitRetained (retention : UndoRetention)
  | abort
  | drop

/-- Whatever comes of it is not looked at. -/
def Ending.run : Ending → Task FsOp Unit
  | .commit => do let _ ← (transaction.commit crates).run
  | .commitRetained retention => do let _ ← (transaction.commitRetained crates retention).run
  | .abort => do let _ ← (transaction.abort crates).run
  | .drop => Task.perform (.unlock transaction.lock)

def recoverAgain : Task FsOp (Except WorktreeError (Option RecoveryReport)) :=
  (recoverOperationTransaction crates transaction.root transaction.options).run

/-- The journal is still there after the transaction was ended or cut, and after any
recoveries, each of them ended or cut; others may have changed what they like but
the journal and its directory. -/
inductive Outlives (start : World) : World → Prop
  | ended (ending : Ending) (finish : World)
      (returned : (ending.run crates transaction).Returns (fsMachine host weather) start () finish)
      (there : (finish.look (host.slot transaction.control.dir operationJournal)).isSome = true) :
      Outlives start finish
  | cut (ending : Ending) (left : World)
      (crashed : (ending.run crates transaction).Crashes (fsMachine host weather) start left)
      (there : (left.look (host.slot transaction.control.dir operationJournal)).isSome = true) :
      Outlives start left.reboot
  | recovered {world : World} (earlier : Outlives start world)
      (result : Except WorktreeError (Option RecoveryReport)) (finish : World)
      (returned : (recoverAgain crates transaction).Returns (fsMachine host weather) world result
        finish)
      (there : (finish.look (host.slot transaction.control.dir operationJournal)).isSome = true) :
      Outlives start finish
  | recoveryCut {world : World} (earlier : Outlives start world) (left : World)
      (crashed : (recoverAgain crates transaction).Crashes (fsMachine host weather) world left)
      (there : (left.look (host.slot transaction.control.dir operationJournal)).isSome = true) :
      Outlives start left.reboot
  | others {world : World} (earlier : Outlives start world) (finish : World)
      (same : finish.look (host.slot transaction.control.dir operationJournal) =
        world.look (host.slot transaction.control.dir operationJournal))
      (controls : FsRoot.Controls host transaction.root transaction.control.dir finish) :
      Outlives start finish

/-- No append is ever refused for the size of the journal. -/
def NeverRefused (start : World) : Prop :=
  (∀ ending here, ¬ (Ending.run crates transaction ending).Calls (fsMachine host weather)
    FsOp.refuseAppend start here) ∧
  ∀ world, Outlives crates host weather transaction start world → ∀ here,
    ¬ (recoverAgain crates transaction).Calls (fsMachine host weather) FsOp.refuseAppend world here

variable {crates host transaction weather} {base : List Record} {start world : World}

namespace Logbook

variable {book : Logbook crates} {mayRefuse : Prop} {α : Type}

/-- A program whose calls leave a safe journal, or none, and are never refused. -/
def Settles (book : Logbook crates) (host : Host) (weather : Weather) (program : Task FsOp α)
    (world : World) : Prop :=
  program.Meets (fsMachine host weather) (book.Cautious host weather False)
    (fun _ finish => book.Recorded finish) world

theorem Settles.unrefused {program : Task FsOp α}
    (settles : book.Settles host weather program world)
    (here : World) : ¬ program.Calls (fsMachine host weather) FsOp.refuseAppend world here :=
  fun reached => (Task.Meets.calls settles reached).2

theorem Settles.returns {program : Task FsOp α} {result : α} {finish : World}
    (settles : book.Settles host weather program world)
    (returned : program.Returns (fsMachine host weather) world result finish) :
    book.Recorded finish :=
  have meets : program.Meets (fsMachine host weather) (book.Cautious host weather False)
      (fun _ finish => book.Recorded finish) world := settles
  meets.returns returned

theorem Settles.crashes {program : Task FsOp α} {left : World}
    (settles : book.Settles host weather program world)
    (crashed : program.Crashes (fsMachine host weather) world left) : book.Recorded left := by
  refine Task.Meets.crashes (Task.Meets.guard_mono settles fun {ρ} op here cautious => ?_)
    (fun _ _ recorded => recorded) crashed
  cases op with
  | io call => exact cautious
  | unlock file => exact cautious
  | refuseAppend => exact cautious.2.elim

/-- Whatever comes of a program, its calls are the same. -/
theorem Settles.ignored {program : Task FsOp α}
    (settles : book.Settles host weather program world) :
    book.Settles host weather (do let _ ← program) world := by
  unfold Settles
  rw [Task.meets_bind]
  exact settles

/-- Dropping the writer and the lock leaves the journal. -/
theorem Closes.consumed {session : Journaled α} {pre : List Record → Prop}
    (closes : book.Closes (fsMachine host weather) (book.Cautious host weather False)
      session.run pre)
    (begins : book.Session pre transaction.journal world) :
    book.Settles host weather (transaction.consume session).run world := by
  unfold Settles PreparedWorktreeTransaction.consume holding
  rw [ExceptT.run_mk, CrashLogic.Task.meets_bind, ExceptT.run_mk, CrashLogic.Task.meets_bind]
  refine (closes transaction.journal world begins).mono fun result middle recorded => ?_
  refine ⟨⟨recorded, fun _ => False.elim⟩, fun answer finish stepped => ?_⟩
  cases stepped
  exact recorded.congr rfl

end Logbook

variable (ready : ReadyHere crates host transaction base start)
include ready

theorem ReadyHere.reserves
    (room : linesCost crates transaction.journal.schema 0
      (base ++ reversed transaction.paths.length) ≤ transaction.journal.maxBytes) :
    (transaction.reserve crates host base ready.bounded).Reserves base transaction.paths.length :=
  ⟨ready.begun, fun _ => Iff.rfl, room⟩

theorem ReadyHere.session :
    (transaction.reserve crates host base ready.bounded).Session (fun records => records = base)
      transaction.journal start :=
  ⟨base, ⟨[], (List.append_nil base).symm, grows_nil⟩, .inl ⟨ready.journal, rfl⟩⟩

/-- Every ending leaves a journal of such records, or none. -/
theorem ReadyHere.ending_settles
    (room : linesCost crates transaction.journal.schema 0
      (base ++ reversed transaction.paths.length) ≤ transaction.journal.maxBytes)
    (ending : Ending) :
    (transaction.reserve crates host base ready.bounded).Settles host weather
      (ending.run crates transaction) start := by
  have reserves := ready.reserves room
  cases ending with
  | commit =>
      exact ((Logbook.commitJournaled_closes transaction reserves.commits reserves.reverts
        ready.indexed ready.apart).consumed ready.session).ignored
  | commitRetained retention =>
      exact ((Logbook.commitRetainedJournaled_closes transaction retention reserves.commits
        reserves.reverts ready.indexed ready.apart).consumed ready.session).ignored
  | abort =>
      exact ((Logbook.abortJournaled_closes transaction reserves.commits.aborted).consumed
        ready.session).ignored
  | drop =>
      refine ⟨⟨ready.session.recorded, fun _ => False.elim⟩, fun answer finish stepped => ?_⟩
      cases stepped
      exact ready.session.recorded.congr rfl

/-- So does a recovery that finds one. -/
theorem ReadyHere.recovery_settles
    (room : linesCost crates transaction.journal.schema 0
      (base ++ reversed transaction.paths.length) ≤ transaction.journal.maxBytes)
    (recorded : (transaction.reserve crates host base ready.bounded).Recorded world)
    (there : (world.look (host.slot transaction.control.dir operationJournal)).isSome = true)
    (controls : FsRoot.Controls host transaction.root transaction.control.dir world) :
    (transaction.reserve crates host base ready.bounded).Settles host weather
      (recoverAgain crates transaction) world := by
  rcases recorded with gone | ⟨records, safe, logged⟩
  · change world.look (host.slot transaction.control.dir operationJournal) = none at gone
    rw [gone] at there
    cases there
  · exact Logbook.recover_meets ((ready.reserves room).resumable ready.prepares)
      ⟨rfl, ready.limit⟩ controls safe logged

/-- The journal goes on to hold such records, and the root to lead to it. -/
theorem ReadyHere.outlives
    (room : linesCost crates transaction.journal.schema 0
      (base ++ reversed transaction.paths.length) ≤ transaction.journal.maxBytes)
    (outlives : Outlives crates host weather transaction start world) :
    (transaction.reserve crates host base ready.bounded).Recorded world ∧
      (world.look (host.slot transaction.control.dir operationJournal)).isSome = true ∧
      FsRoot.Controls host transaction.root transaction.control.dir world := by
  have leads : (fsMachine host weather).Maintains (fun _ => True)
      (FsRoot.Controls host transaction.root transaction.control.dir) :=
    FsRoot.controls_maintains transaction.root transaction.control.dir
  induction outlives with
  | ended ending finish returned there =>
      exact ⟨(ready.ending_settles room ending).returns returned, there,
        (Task.maintains_meets leads _ ready.controls).returns returned⟩
  | cut ending left crashed there =>
      have controls : FsRoot.Controls host transaction.root transaction.control.dir left :=
        (Task.maintains_meets leads _ ready.controls).crashes (fun _ _ => id) crashed
      exact ⟨((ready.ending_settles room ending).crashes crashed).congr rfl, there, controls⟩
  | recovered _ result finish returned there ih =>
      obtain ⟨recorded, before, controls⟩ := ih
      exact ⟨(ready.recovery_settles room recorded before controls).returns returned, there,
        (Task.maintains_meets leads _ controls).returns returned⟩
  | recoveryCut _ left crashed there ih =>
      obtain ⟨recorded, before, controls⟩ := ih
      have after : FsRoot.Controls host transaction.root transaction.control.dir left :=
        (Task.maintains_meets leads _ controls).crashes (fun _ _ => id) crashed
      exact ⟨((ready.recovery_settles room recorded before controls).crashes crashed).congr rfl,
        there, after⟩
  | others _ finish same controls ih =>
      obtain ⟨recorded, before, _⟩ := ih
      refine ⟨recorded.congr same, ?_, controls⟩
      rw [same]
      exact before

/-- With room for a complete commit and its complete rollback nothing is refused. -/
theorem journal_never_refused
    (room : linesCost crates transaction.journal.schema 0
      (base ++ reversed transaction.paths.length) ≤ transaction.journal.maxBytes) :
    NeverRefused crates host weather transaction start :=
  ⟨fun ending => (ready.ending_settles room ending).unrefused, fun world outlives => by
    obtain ⟨recorded, there, controls⟩ := ready.outlives room outlives
    exact (ready.recovery_settles room recorded there controls).unrefused⟩

end

/-! ### A journal without room -/

section Tight

theorem creation_ready : ReadyHere plainCrates .plain creation creationRecords creationWorld := by
  have prepared := creation_prepared
  refine ⟨prepared.bounded, ⟨prepared.journal.stores, prepared.journal.knows,
    prepared.journal.ordered, prepared.journal.fits⟩, prepared.begun, ⟨rfl, ?_, ?_⟩,
    fun path among => ⟨(prepared.apart path among).present, (prepared.apart path among).staged⟩,
    ?_, rfl, ?_⟩
  · decide
  · intro index identity backup staged
    simp [creationRecords] at staged
    obtain ⟨_, rfl, _⟩ := staged
    exact (by decide : (5 : Nat) ≠ 4)
  · intro index path found
    cases index with
    | zero =>
        cases found
        rfl
    | succ index => cases found
  · exact ⟨1, ⟨by decide +kernel, rfl⟩, ⟨by decide +kernel, rfl⟩⟩

/-- A prepared creation with the default limits is never refused a record. -/
theorem journal_never_refused_creation :
    NeverRefused plainCrates .plain .stormy creation creationWorld :=
  journal_never_refused creation_ready (by decide +kernel)

/-- Room for the preparation of `createPlan` and for one record more. -/
def tightOptions : WorktreeOptions :=
  ⟨{ WorktreeLimits.default with maxJournalBytes := 1705 }, 1⟩

@[irreducible] private def tightPrepare : Planning PreparedWorktreeTransaction :=
  prepareOperationPlan plainCrates (fun _ => none) ⟨0, 0⟩ tightOptions createPlan

private def tightEnd : Except WorktreeError PreparedWorktreeTransaction × World :=
  tightPrepare.run.phasedRun (fsKernel .plain) bareWorld

/-- Whether the run in which nothing fails is refused a record. -/
def refusing (host : Host) {α : Type} : Task FsOp α → World → Bool
  | .done _, _ => false
  | .call .refuseAppend _, _ => true
  | .call (.io call) next, start =>
      refusing host (next (call.exec host start).1) (call.exec host start).2
  | .call (.unlock file) next, start =>
      refusing host (next ()) ((fsKernel host).exec (.unlock file) start).2

theorem calls_of_refusing {host : Host} {weather : Weather} {α : Type} {program : Task FsOp α}
    {start : World} (refused : refusing host program start = true) :
    ∃ here, program.Calls (fsMachine host weather) FsOp.refuseAppend start here := by
  induction program generalizing start with
  | done value => cases refused
  | call op next ih =>
      cases op with
      | io call =>
          obtain ⟨here, reached⟩ := ih _ refused
          exact ⟨here, .inr ⟨_, _, .inl rfl, reached⟩⟩
      | unlock file =>
          obtain ⟨here, reached⟩ := ih _ refused
          exact ⟨here, .inr ⟨_, _, rfl, reached⟩⟩
      | refuseAppend => exact ⟨start, .inl ⟨⟨rfl, rfl⟩, rfl⟩⟩

/-- Valid limits under which a plan is prepared, and then has no room to be committed
or restored: `a` is created, and neither that nor its removal can be recorded. -/
theorem tight_refused :
    tightOptions.validate = .ok () ∧
    ∃ transaction finish, (prepareOperationPlan plainCrates (fun _ => none) ⟨0, 0⟩ tightOptions
        createPlan).run.Returns (fsMachine .plain .calm).phased bareWorld (.ok transaction)
        finish ∧ ¬ NeverRefused plainCrates .plain .calm transaction finish := by
  have same : tightPrepare = prepareOperationPlan plainCrates (fun _ => none) ⟨0, 0⟩ tightOptions
      createPlan := by
    unfold tightPrepare
    rfl
  have some_worker : tightPrepare.run.manned (fsKernel .plain) bareWorld = true := by
    decide +kernel
  have returned : tightPrepare.run.Returns (fsMachine .plain .calm).phased bareWorld
      tightEnd.1 tightEnd.2 :=
    Task.returns_phasedRun (step_exec trivial) _ bareWorld some_worker
  have ended : (tightEnd.1.toOption.any fun transaction =>
      refusing .plain (Ending.run plainCrates transaction .commit) tightEnd.2) = true := by
    decide +kernel
  refine ⟨by decide +kernel, ?_⟩
  rw [← same]
  cases prepared : tightEnd.1 with
  | error error =>
      rw [prepared] at ended
      cases ended
  | ok transaction =>
      rw [prepared] at returned ended
      obtain ⟨here, reached⟩ := @calls_of_refusing .plain .calm _ _ _ ended
      exact ⟨transaction, tightEnd.2, returned, fun never => never.1 .commit here reached⟩

end Tight

end Worktree
