import Worktree.Operation.Skirting
/-
The records a commit appends.

Every path is announced and then recorded as committed, in order. When one of
them fails, those that changed are restored, the latest first, and the records
of the restoration follow those of the commit.
-/

namespace Worktree

open CrashLogic

/-! ### The records -/

/-- The records of the first paths, committed one after the other. -/
def committing : Nat → List Record
  | 0 => []
  | count + 1 => committing count ++ [.commitIntent count, .committed count]

/-- The records of restoring the last of the first `top` paths, the latest first. -/
def rolling (top : Nat) : Nat → List Record
  | 0 => []
  | count + 1 =>
      rolling top count ++ [.rollbackIntent (top - 1 - count), .rolledBack (top - 1 - count)]

namespace Logbook

variable {T : Type} {crates : Crates T} {book : Logbook crates} {host : Host} {weather : Weather}
  {mayRefuse : Prop} {α ε : Type}

/-- The record may follow these. -/
structure Takes (book : Logbook crates) (mayRefuse : Prop) (records : List Record)
    (record : Record) : Prop where
  body : record.isHeader = false ∧ records ≠ []
  safe : book.safe (records ++ [record])
  room : linesCost crates book.schema 0 (records ++ [record]) ≤ book.maxBytes ∨ mayRefuse

/-- What a commit of this many paths may append. -/
structure Commits (book : Logbook crates) (mayRefuse : Prop) (base : List Record) (count : Nat) :
    Prop where
  intent : ∀ index, index < count →
    book.Takes mayRefuse (base ++ committing index) (.commitIntent index)
  committed : ∀ index, index < count →
    book.Takes mayRefuse (base ++ committing index ++ [.commitIntent index]) (.committed index)
  finished : book.Takes mayRefuse (base ++ committing count) (.finished .committed)
  aborted : book.Takes mayRefuse base (.finished .aborted)

/-- What a restoration of the first `top` paths may append. -/
structure Restores (book : Logbook crates) (mayRefuse : Prop) (base : List Record) (top : Nat) :
    Prop where
  intent : ∀ count, count < top →
    book.Takes mayRefuse (base ++ rolling top count) (.rollbackIntent (top - 1 - count))
  rolledBack : ∀ count, count < top →
    book.Takes mayRefuse (base ++ rolling top count ++ [.rollbackIntent (top - 1 - count)])
      (.rolledBack (top - 1 - count))
  finished : book.Takes mayRefuse (base ++ rolling top top) (.finished .rolledBack)

/-- One record that may follow, after which the records are these and one more. -/
theorem append_takes {records : List Record} {record : Record}
    (wrap : JournalError → WorktreeError) (takes : book.Takes mayRefuse records record) :
    book.Logs (fsMachine host weather) (book.Cautious host weather mayRefuse)
      (appendOr crates record wrap).run (fun here => here = records)
      fun result here => match result with
        | .ok _ => here = records ++ [record]
        | .error _ => here = records := by
  refine appendOr_logs record wrap fun here safe same => ?_
  subst same
  refine ⟨?_, takes.safe, rfl, takes.room.imp_right fun may => ⟨may, fun _ _ => rfl⟩⟩
  constructor
  · intro header
    rw [takes.body.1] at header
    cases header
  · intro empty
    exact absurd empty takes.body.2

/-! ### Steps of one path -/

theorem step_logs {program : Action α} {pre : List Record → Prop} (state : MutationState)
    (good : α → Prop) (skirts : book.Skirts host weather program good) :
    book.Logs (fsMachine host weather) (book.Cautious host weather mayRefuse)
      (program.step state).run pre fun result records => pre records ∧ match result with
        | .ok value => good value
        | .error error => error.2 = state := by
  refine (logs_adapt (beside_logs skirts)).post fun result records _ ended => ?_
  obtain ⟨found, rfl, holds, facts⟩ := ended
  cases found with
  | ok value => exact ⟨holds, facts value rfl⟩
  | error error => exact ⟨holds, rfl⟩

theorem appendStep_logs {records : List Record} {record : Record} (state : MutationState)
    (wrap : JournalError → WorktreeError) (takes : book.Takes mayRefuse records record) :
    book.Logs (fsMachine host weather) (book.Cautious host weather mayRefuse)
      (appendStep crates record state wrap).run (fun here => here = records)
      fun result here => match result with
        | .ok _ => here = records ++ [record]
        | .error error => here = records ∧ error.2 = state := by
  refine (logs_adapt (append_takes wrap takes)).post fun result here _ ended => ?_
  obtain ⟨found, rfl, holds⟩ := ended
  cases found with
  | ok value => exact holds
  | error error => exact ⟨holds, rfl⟩

variable (transaction : PreparedWorktreeTransaction)

theorem classified_logs {path : StagedPath} {action : Action Unit} {pre : List Record → Prop}
    (wrap : MutationState → WorktreeError → WorktreeError)
    (skirts : book.Skirts host weather action fun _ => True) :
    book.Logs (fsMachine host weather) (book.Cautious host weather mayRefuse)
      (Commit.classified crates transaction path action wrap).run pre fun _ records =>
        pre records := by
  unfold Commit.classified
  refine Logs.bind (lift_logs (fun _ => True) fun seen ino reserved =>
    Task.Upholds.mono (skirts seen ino reserved) fun _ _ => trivial) fun result => ?_
  cases result with
  | ok value => exact (logs_pure _).post fun _ _ _ ended => ended.2.1
  | error error =>
      refine Logs.bind (lift_logs (fun _ => True) fun seen _ _ =>
        Task.Upholds.allowed_mono (classify_rests path) (fun _ => False.elim)
          fun _ _ => trivial) fun state => ?_
      exact (logs_pure _).post fun _ _ _ ended => ended.2.1.1

/-- Where the records stand when the path with this index has failed. -/
def Failed (base : List Record) (index : Nat) (state : MutationState) (records : List Record) :
    Prop :=
  records = base ++ committing index ++ [.commitIntent index] ∨
    records = base ++ committing index ∧ state = .unchanged

theorem commitOne_logs {base : List Record} {count : Nat}
    (commits : book.Commits mayRefuse base count)
    {path : StagedPath} {index : Nat} (placed : path.stableIndex = index) (bound : index < count)
    (apart : book.Apart host path) :
    book.Logs (fsMachine host weather) (book.Cautious host weather mayRefuse)
      (Commit.commitOne crates transaction path index).run
      (fun records => records = base ++ committing index)
      fun result records => match result with
        | .ok _ => records = base ++ committing (index + 1)
        | .error error => Failed base index error.2 records := by
  subst placed
  unfold Commit.commitOne
  refine Logs.except_bind (step_logs .unchanged (fun _ => True)
    (skirts_orElse (skirts_reads (revalidateParent_reads _ _)))) (fun _ => ?_) ?_
  · refine Logs.except_bind ((step_logs .unchanged _ (verifySlot_skirts path path.before _ _)).mono
      (fun _ _ holds => holds.1) fun _ _ _ ended => ended) (fun _ => ?_) ?_
    · refine Logs.except_bind ((appendStep_logs .unchanged _ (commits.intent _ bound)).mono
        (fun _ _ holds => holds.1) fun _ _ _ ended => ended) (fun _ => ?_) ?_
      · refine Logs.except_bind (classified_logs transaction _ (mutate_skirts apart))
          (fun _ => ?_) ?_
        · refine Logs.except_bind (classified_logs transaction _
            (skirts_orElse (skirts_reads TargetAccess.syncParent_reads))) (fun _ => ?_) ?_
          · refine (appendStep_logs .changed _ (commits.committed _ bound)).post
              fun result records _ ended => ?_
            cases result with
            | ok value =>
                rw [committing, ended]
                simp
            | error error => exact .inl ended.1
          · exact fun _ _ _ holds => .inl holds
        · exact fun _ _ _ holds => .inl holds
      · exact fun _ _ _ holds => .inr holds
    · exact fun _ _ _ holds => .inr holds
  · exact fun _ _ _ holds => .inr holds

/-! ### All paths -/

/-- Where the records stand when a rollback of these paths begins. -/
def Interrupted (base : List Record) (paths changed : List StagedPath) (records : List Record) :
    Prop :=
  ∃ index, index < paths.length ∧
    (changed = paths.take index ∧ (records = base ++ committing index ∨
        records = base ++ committing index ++ [.commitIntent index]) ∨
      changed = paths.take (index + 1) ∧
        records = base ++ committing index ++ [.commitIntent index])

/-- The paths stand in the order of their indices. -/
def Indexed (paths : List StagedPath) : Prop :=
  ∀ (index : Nat) (path : StagedPath), paths[index]? = some path → path.stableIndex = index

theorem commitPaths_logs {base : List Record} {paths : List StagedPath}
    (commits : book.Commits mayRefuse base paths.length) (indexed : Indexed paths)
    (apart : ∀ path ∈ paths, book.Apart host path) (done rest : List StagedPath)
    (split : paths = done ++ rest) :
    book.Logs (fsMachine host weather) (book.Cautious host weather mayRefuse)
      (Commit.commitPaths crates transaction done (rest.zipIdx done.length)).run
      (fun records => records = base ++ committing done.length)
      fun result records => match result with
        | .ok _ => records = base ++ committing paths.length
        | .error (.ambiguous _) => True
        | .error (.changed _ changed) => Interrupted base paths changed records := by
  induction rest generalizing done with
  | nil =>
      refine (logs_pure _).post fun result records _ ended => ?_
      rw [ended.1, split, List.append_nil]
      exact ended.2
  | cons path rest ih =>
      have found : paths[done.length]? = some path := by
        rw [split, List.getElem?_append_right (Nat.le_refl _)]
        simp
      have bound : done.length < paths.length := by
        rw [split, List.length_append, List.length_cons]
        omega
      have among : path ∈ paths := List.mem_of_getElem? found
      have before : done = paths.take done.length := by
        rw [split, List.take_left' rfl]
      have regrouped : paths = (done ++ [path]) ++ rest := by
        rw [split, List.append_assoc]
        rfl
      have through : done ++ [path] = paths.take (done.length + 1) := by
        rw [regrouped, List.take_left' (by simp)]
      rw [List.zipIdx_cons]
      unfold Commit.commitPaths
      refine Logs.except_bind (logs_adapt (commitOne_logs transaction commits
        (indexed _ _ found) bound (apart path among))) (fun value => ?_) ?_
      · have next := ih (done ++ [path]) regrouped
        rw [List.length_append, List.length_singleton] at next
        refine next.mono (fun records _ holds => ?_) fun _ _ _ ended => ended
        obtain ⟨result, same, ended⟩ := holds
        cases result with
        | ok value => exact ended
        | error error => cases same
      · intro error records _ holds
        obtain ⟨result, same, ended⟩ := holds
        cases result with
        | ok value => cases same
        | error failed =>
            obtain ⟨cause, state⟩ := failed
            cases same
            cases state with
            | unchanged =>
                refine ⟨done.length, bound, .inl ⟨before, ?_⟩⟩
                rcases ended with announced | ⟨silent, _⟩
                · exact .inr announced
                · exact .inl silent
            | changed =>
                refine ⟨done.length, bound, .inr ⟨through, ?_⟩⟩
                rcases ended with announced | ⟨_, impossible⟩
                · exact announced
                · cases impossible
            | linkedInstall =>
                refine ⟨done.length, bound, .inr ⟨through, ?_⟩⟩
                rcases ended with announced | ⟨_, impossible⟩
                · exact announced
                · cases impossible
            | ambiguous => trivial

/-! ### Restoring what changed -/

theorem rollbackOne_logs {base : List Record} {top count : Nat}
    (restores : book.Restores mayRefuse base top) (bound : count < top) {path : StagedPath}
    (placed : path.stableIndex = top - 1 - count) (apart : book.Apart host path) :
    book.Logs (fsMachine host weather) (book.Cautious host weather mayRefuse)
      (Commit.rollbackOne crates transaction path).run
      (fun records => records = base ++ rolling top count)
      fun result records => match result with
        | .ok _ => records = base ++ rolling top (count + 1)
        | .error _ => True := by
  unfold Commit.rollbackOne
  rw [placed]
  refine Logs.except_bind (append_takes _ (restores.intent count bound)) (fun _ => ?_)
    fun _ _ _ _ => trivial
  refine Logs.except_bind (beside_logs fun seen ino reserved =>
    Task.yields_adapt (restore_skirts apart seen ino reserved)) (fun _ => ?_) fun _ _ _ _ => trivial
  refine ((append_takes _ (restores.rolledBack count bound)).mono
    (fun _ _ holds => holds.1) fun result records _ ended => ?_)
  cases result with
  | ok value =>
      rw [rolling, ended]
      simp
  | error error => trivial

theorem restored_logs {base : List Record} {paths : List StagedPath} {top : Nat}
    (restores : book.Restores mayRefuse base top) (within : top ≤ paths.length)
    (indexed : Indexed paths) (apart : ∀ path ∈ paths, book.Apart host path) :
    book.Logs (fsMachine host weather) (book.Cautious host weather mayRefuse)
      ((paths.take top).reverse.forM (Commit.rollbackOne crates transaction)).run
      (fun records => records = base)
      fun result records => match result with
        | .ok _ => records = base ++ rolling top top
        | .error _ => True := by
  have counted : (paths.take top).reverse.length = top := by
    rw [List.length_reverse, List.length_take, Nat.min_eq_left within]
  have loop : book.Logs (fsMachine host weather) (book.Cautious host weather mayRefuse)
      ((paths.take top).reverse.forM (Commit.rollbackOne crates transaction)).run
      (fun records => records = base ++ rolling top 0)
      fun result records => match result with
        | .ok _ => records = base ++ rolling top (paths.take top).reverse.length
        | .error _ => True := by
    refine (logs_forM (fun count records => records = base ++ rolling top count)
      (fun _ => True) fun past path rest split => ?_).post fun result _ _ ended => by
        cases result <;> exact ended
    have bound : past.length < top := by
      rw [← counted, split, List.length_append, List.length_cons]
      omega
    have found : (paths.take top).reverse[past.length]? = some path := by
      rw [split, List.getElem?_append_right (Nat.le_refl _)]
      simp
    have taken : (paths.take top).length = top := by
      rw [List.length_take, Nat.min_eq_left within]
    rw [List.getElem?_reverse (by omega), taken, List.getElem?_take_of_lt (by omega)] at found
    have placed : path.stableIndex = top - 1 - past.length := indexed _ _ found
    exact (rollbackOne_logs transaction restores bound placed
      (apart path (List.mem_of_getElem? found))).post fun result _ _ ended => by
        cases result <;> exact ended
  rw [counted] at loop
  refine loop.mono (fun records _ same => ?_) fun _ _ _ ended => ended
  rw [same, rolling, List.append_nil]

theorem removeJournal_closes {pre : List Record → Prop} (message : String) :
    book.Closes (fsMachine host weather) (book.Cautious host weather mayRefuse)
      (beside (Commit.removeJournal transaction message)).run pre :=
  removeOperationJournal_closes _ _

/-- The restoration of the paths that changed leaves a safe journal, or none. -/
theorem rollbackChanged_closes {base : List Record} {paths : List StagedPath} {top : Nat}
    (restores : book.Restores mayRefuse base top) (within : top ≤ paths.length)
    (indexed : Indexed paths) (apart : ∀ path ∈ paths, book.Apart host path) :
    book.Closes (fsMachine host weather) (book.Cautious host weather mayRefuse)
      (Commit.rollbackChanged crates transaction (paths.take top)).run
      (fun records => records = base) := by
  unfold Commit.rollbackChanged
  refine Closes.except_after (restored_logs transaction restores within indexed apart) fun _ => ?_
  refine Closes.except_after (append_takes _ restores.finished) fun _ => ?_
  refine Closes.except_after (beside_logs (cleanup_skirts _)) fun _ => ?_
  exact removeJournal_closes transaction _

theorem finishWithoutChanges_closes {base : List Record}
    (aborted : book.Takes mayRefuse base (.finished .aborted)) :
    book.Closes (fsMachine host weather) (book.Cautious host weather mayRefuse)
      (Commit.finishWithoutChanges crates transaction).run (fun records => records = base) := by
  unfold Commit.finishWithoutChanges
  refine Closes.except_after (append_takes _ aborted) fun _ => ?_
  refine Closes.except_after (beside_logs (cleanup_skirts _)) fun _ => ?_
  exact removeJournal_closes transaction _

theorem abortJournaled_closes {base : List Record}
    (aborted : book.Takes mayRefuse base (.finished .aborted)) :
    book.Closes (fsMachine host weather) (book.Cautious host weather mayRefuse)
      (Commit.abortJournaled crates transaction).run (fun records => records = base) := by
  unfold Commit.abortJournaled
  refine Closes.except_after (append_takes _ aborted) fun _ => ?_
  refine Closes.except_after (beside_logs (cleanup_skirts _)) fun removed => ?_
  exact (removeJournal_closes transaction _).except_then fun _ => ⟨_, rfl⟩

/-! ### The whole commit -/

/-- Every restoration a commit of these paths may begin. -/
structure Reverts (book : Logbook crates) (mayRefuse : Prop) (base : List Record) (count : Nat) :
    Prop where
  before : ∀ index, index < count → book.Restores mayRefuse (base ++ committing index) index
  unchanged : ∀ index, index < count →
    book.Restores mayRefuse (base ++ committing index ++ [.commitIntent index]) index
  changed : ∀ index, index < count →
    book.Restores mayRefuse (base ++ committing index ++ [.commitIntent index]) (index + 1)

theorem verified_opens {base : List Record}
    (aborted : book.Takes mayRefuse base (.finished .aborted)) :
    book.Opens (fsMachine host weather) (book.Cautious host weather mayRefuse)
      (Commit.verified crates transaction) (fun records => records = base)
      fun _ records => records = base := by
  unfold Commit.verified
  refine Opens.after (logs_attempt (lift_logs (fun _ => True) fun seen ino reserved =>
    Task.Upholds.mono (verifyAll_skirts seen ino reserved) fun _ _ => trivial)) fun result => ?_
  cases result with
  | ok value =>
      refine opens_pure _ ?_
      rintro records _ ⟨_, _, same, _⟩
      exact same
  | error error =>
      refine Closes.opens ((finishWithoutChanges_closes transaction aborted).mono ?_) _
      rintro records _ ⟨_, _, same, _⟩
      exact same

/-- Whatever happened to the journal, what changed is the first of the paths. -/
theorem commitPaths_changed (done rest : List StagedPath) (writer : Writer) (world : World) :
    ((Commit.commitPaths crates transaction done (rest.zipIdx done.length)).run.run
      writer).Meets (fsMachine host weather) (fun _ _ => True)
      (fun result _ => ∀ error changed, result.1 = .error (.changed error changed) →
        0 < (done ++ rest).length ∧ ∃ top, top ≤ (done ++ rest).length ∧
          changed = (done ++ rest).take top) world := by
  induction rest generalizing done writer world with
  | nil =>
      intro error changed impossible
      cases impossible
  | cons path rest ih =>
      have regrouped : done ++ path :: rest = (done ++ [path]) ++ rest := by simp
      have nonempty : 0 < (done ++ path :: rest).length := by
        rw [List.length_append, List.length_cons]
        omega
      rw [List.zipIdx_cons]
      unfold Commit.commitPaths
      rw [Task.meets_session_bind, ExceptT.run_adapt, StateT.run_map, Task.meets_map]
      refine (Task.meets_true _ world).mono fun result here _ => ?_
      obtain ⟨found | value, after⟩ := result
      · intro error changed same
        obtain ⟨cause, state⟩ := found
        cases state with
        | unchanged =>
            cases same
            exact ⟨nonempty, done.length, by simp, by rw [List.take_left' rfl]⟩
        | changed =>
            cases same
            refine ⟨nonempty, (done ++ [path]).length, by simp, ?_⟩
            rw [regrouped, List.take_left' rfl]
        | linkedInstall =>
            cases same
            refine ⟨nonempty, (done ++ [path]).length, by simp, ?_⟩
            rw [regrouped, List.take_left' rfl]
        | ambiguous => cases same
      · have next := ih (done ++ [path]) after here
        rw [← regrouped, List.length_append, List.length_singleton] at next
        exact next

/-- A rollback closes the journal wherever the commit was interrupted. -/
theorem rollback_closes {base : List Record} {changed : List StagedPath}
    (reverts : book.Reverts mayRefuse base transaction.paths.length)
    (indexed : Indexed transaction.paths) (apart : ∀ path ∈ transaction.paths, book.Apart host path)
    (some_path : 0 < transaction.paths.length)
    (first : ∃ top, top ≤ transaction.paths.length ∧ changed = transaction.paths.take top) :
    book.Closes (fsMachine host weather) (book.Cautious host weather mayRefuse)
      (Commit.rollbackChanged crates transaction changed).run
      (Interrupted base transaction.paths changed) := by
  intro writer world session
  have closes : ∀ (records : List Record) (top : Nat), book.Restores mayRefuse records top →
      top ≤ transaction.paths.length → changed = transaction.paths.take top →
      book.Session (fun here => here = records) writer world →
      ((Commit.rollbackChanged crates transaction changed).run.run writer).Meets
        (fsMachine host weather) (book.Cautious host weather mayRefuse)
        (fun _ finish => book.Recorded finish) world := by
    intro records top restores within same started
    rw [same]
    exact rollbackChanged_closes transaction restores within indexed apart writer world started
  obtain ⟨records, safe, ⟨inStep, index, bound, ⟨same, before⟩ | ⟨same, announced⟩⟩ | poisoned⟩ :=
    session
  · rcases before with before | announced
    · exact closes records index (before ▸ reverts.before index bound) (by omega) same
        ⟨records, safe, .inl ⟨inStep, rfl⟩⟩
    · exact closes records index (announced ▸ reverts.unchanged index bound) (by omega) same
        ⟨records, safe, .inl ⟨inStep, rfl⟩⟩
  · exact closes records (index + 1) (announced ▸ reverts.changed index bound) (by omega) same
      ⟨records, safe, .inl ⟨inStep, rfl⟩⟩
  · obtain ⟨top, within, same⟩ := first
    cases top with
    | zero =>
        exact closes _ 0 (reverts.unchanged 0 some_path) within same
          ⟨records, safe, .inr poisoned⟩
    | succ index =>
        exact closes _ (index + 1) (reverts.changed index (by omega)) within same
          ⟨records, safe, .inr poisoned⟩

theorem commitAll_opens {base : List Record} {discard : Action Unit}
    (commits : book.Commits mayRefuse base transaction.paths.length)
    (reverts : book.Reverts mayRefuse base transaction.paths.length)
    (indexed : Indexed transaction.paths) (apart : ∀ path ∈ transaction.paths, book.Apart host path)
    (skirts : book.Skirts host weather discard fun _ => True) :
    book.Opens (fsMachine host weather) (book.Cautious host weather mayRefuse)
      (Commit.commitAll crates transaction discard) (fun records => records = base)
      fun _ records => records = base ++ committing transaction.paths.length := by
  intro writer world session
  have ran : ((Commit.commitPaths crates transaction [] transaction.paths.zipIdx).run.run
      writer).Meets (fsMachine host weather) (book.Cautious host weather mayRefuse) _ world :=
    commitPaths_logs transaction commits indexed apart [] transaction.paths rfl writer world
      (session.mono fun records _ same => by rw [same]; exact (List.append_nil _).symm)
  have shape : ((Commit.commitPaths crates transaction [] transaction.paths.zipIdx).run.run
      writer).Meets (fsMachine host weather) (fun _ _ => True) _ world :=
    commitPaths_changed transaction [] transaction.paths writer world
  unfold Commit.commitAll
  rw [Task.meets_session_bind, ExceptT.run_lift, StateT.run_map, Task.meets_map]
  refine (ran.and shape).mono fun result finish ended => ?_
  obtain ⟨result, after⟩ := result
  obtain ⟨ended, prefixed⟩ := ended
  cases result with
  | ok value => exact ended
  | error failure =>
      cases failure with
      | ambiguous error => exact ended.recorded
      | changed error changed =>
          have first := prefixed error changed rfl
          have closing : book.Opens (fsMachine host weather)
              (book.Cautious host weather mayRefuse)
              (do
                beside discard
                Commit.rollbackChanged crates transaction changed
                throw (error.inTransaction transaction.transactionId) : Journaled Unit)
              (Interrupted base transaction.paths changed)
              fun _ records => records = base ++ committing transaction.paths.length := by
            refine Opens.after (beside_logs skirts) fun _ => ?_
            refine (Closes.opens (rollback_closes transaction reverts indexed apart first.1
              first.2) _).mono (fun _ _ holds => holds.1) fun _ _ _ => id
          exact closing after finish ended

theorem appendFinishedCommit_logs {base : List Record} {count : Nat}
    (commits : book.Commits mayRefuse base count) :
    book.Logs (fsMachine host weather) (book.Cautious host weather mayRefuse)
      (Commit.appendFinishedCommit crates).run
      (fun records => records = base ++ committing count) fun _ _ => True :=
  (append_takes _ commits.finished).post fun _ _ _ _ => trivial

/-- A commit leaves a safe journal at each point, and at the end a safe one or none. -/
theorem commitJournaled_closes {base : List Record}
    (commits : book.Commits mayRefuse base transaction.paths.length)
    (reverts : book.Reverts mayRefuse base transaction.paths.length)
    (indexed : Indexed transaction.paths)
    (apart : ∀ path ∈ transaction.paths, book.Apart host path) :
    book.Closes (fsMachine host weather) (book.Cautious host weather mayRefuse)
      (Commit.commitJournaled crates transaction).run (fun records => records = base) := by
  unfold Commit.commitJournaled
  refine Opens.closes (verified_opens transaction commits.aborted) fun _ => ?_
  refine Opens.closes (commitAll_opens transaction commits reverts indexed apart
    (skirts_pure _ trivial)) fun _ => ?_
  refine Closes.except_after (appendFinishedCommit_logs commits) fun _ => ?_
  refine Closes.except_after (beside_logs (cleanup_skirts _)) fun _ => ?_
  exact (removeJournal_closes transaction _).except_then fun _ => ⟨_, rfl⟩

theorem prepared_opens {base : List Record} (retention : UndoRetention)
    (aborted : book.Takes mayRefuse base (.finished .aborted)) :
    book.Opens (fsMachine host weather) (book.Cautious host weather mayRefuse)
      (Commit.prepared crates transaction retention) (fun records => records = base)
      fun _ records => records = base := by
  unfold Commit.prepared
  refine Opens.after (logs_attempt (lift_logs (fun _ => True) fun seen ino reserved =>
    Task.Upholds.mono (prepareRetention_skirts retention seen ino reserved)
      fun _ _ => trivial)) fun result => ?_
  cases result with
  | ok receipt =>
      refine opens_pure _ ?_
      rintro records _ ⟨_, _, same, _⟩
      exact same
  | error error =>
      refine Closes.opens ((finishWithoutChanges_closes transaction aborted).mono ?_) _
      rintro records _ ⟨_, _, same, _⟩
      exact same

theorem commitRetainedJournaled_closes {base : List Record} (retention : UndoRetention)
    (commits : book.Commits mayRefuse base transaction.paths.length)
    (reverts : book.Reverts mayRefuse base transaction.paths.length)
    (indexed : Indexed transaction.paths)
    (apart : ∀ path ∈ transaction.paths, book.Apart host path) :
    book.Closes (fsMachine host weather) (book.Cautious host weather mayRefuse)
      (Commit.commitRetainedJournaled crates transaction retention).run
      (fun records => records = base) := by
  unfold Commit.commitRetainedJournaled
  refine Opens.closes (verified_opens transaction commits.aborted) fun _ => ?_
  refine Opens.closes (prepared_opens transaction retention commits.aborted) fun receipt => ?_
  refine Opens.closes (commitAll_opens transaction commits reverts indexed apart
    discardTransitionalReceipt_skirts) fun _ => ?_
  unfold Commit.finishRetained
  refine Closes.except_then (Closes.except_after (appendFinishedCommit_logs commits) fun _ => ?_)
    fun _ => ⟨_, rfl⟩
  refine Closes.except_after (beside_logs cleanupStages_skirts) fun _ => ?_
  refine Closes.except_after (beside_logs retainBackups_skirts) fun _ => ?_
  exact removeJournal_closes transaction _

end Logbook

end Worktree
