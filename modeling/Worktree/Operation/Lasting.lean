import Worktree.Operation.Accepting
/-
Which journals the endings of a transaction leave, and what recoveries make of them.

A recovery restores every path that was announced, the latest first. So its records
come in order wherever a path is restored only after all that were announced above
it; then the journal can be replayed again, however often recoveries are cut.
-/

namespace Worktree

open CrashLogic

/-! ### Facts of a course -/

variable {ready : Bool} {count index other : Nat} {past tail : List Record} {record : Record}

theorem Course.later (course : Course ready count tail) (among : record ∈ tail) :
    record.prepares = false := by
  induction course with
  | nil => cases among
  | snoc course admits ih =>
      rcases List.mem_append.mp among with earlier | last
      · exact ih earlier
      · cases List.mem_singleton.mp last
        cases record with
        | header | operation | pathIntent | pathStaged | prepared => exact admits.elim
        | _ => rfl

theorem Course.announced (course : Course ready count tail) (among : .commitIntent index ∈ tail) :
    ready = true ∧ index < count := by
  induction course with
  | nil => cases among
  | snoc course admits ih =>
      rcases List.mem_append.mp among with earlier | last
      · exact ih earlier
      · cases List.mem_singleton.mp last
        exact ⟨admits.1, admits.2.1⟩

theorem Course.announcing (course : Course ready count tail)
    (among : .rollbackIntent index ∈ tail) : .commitIntent index ∈ tail := by
  induction course with
  | nil => cases among
  | snoc course admits ih =>
      rcases List.mem_append.mp among with earlier | last
      · exact List.mem_append_left _ (ih earlier)
      · cases List.mem_singleton.mp last
        exact List.mem_append_left _ admits.2.1

theorem Course.reversal (course : Course ready count tail) (among : .rolledBack index ∈ tail) :
    .rollbackIntent index ∈ tail := by
  induction course with
  | nil => cases among
  | snoc course admits ih =>
      rcases List.mem_append.mp among with earlier | last
      · exact List.mem_append_left _ (ih earlier)
      · cases List.mem_singleton.mp last
        exact List.mem_append_left _ admits.2.1

/-- Below a path that is being restored nothing is begun before it is restored. -/
theorem Course.restored (course : Course ready count tail) (among : .rollbackIntent index ∈ tail)
    (lower : .rollbackIntent other ∈ tail) (below : other < index) : .rolledBack index ∈ tail := by
  induction course with
  | nil => cases among
  | snoc course admits ih =>
      refine List.mem_append_left _ ?_
      rcases List.mem_append.mp among with earlier | last
      · rcases List.mem_append.mp lower with before | latest
        · exact ih earlier before
        · cases List.mem_singleton.mp latest
          exact (admits.2.2 index earlier).1
      · cases List.mem_singleton.mp last
        rcases List.mem_append.mp lower with before | latest
        · have above := (admits.2.2 other before).2
          omega
        · cases List.mem_singleton.mp latest
          exact absurd below (Nat.lt_irrefl _)

/-! ### Restoring from above -/

/-- As long as nothing has ended, whatever was announced above a path that is being
restored is being restored as well. -/
def Descends (tail : List Record) : Prop :=
  Going tail → ∀ upper lower, .commitIntent upper ∈ tail → .rollbackIntent lower ∈ tail →
    lower ≤ upper → .rollbackIntent upper ∈ tail

theorem Descends.finish (outcome : FinishOutcome) : Descends (tail ++ [.finished outcome]) :=
  fun going => absurd (List.mem_append_right _ List.mem_cons_self) (going outcome)

/-- The records while a recovery has settled this many paths, the latest first. -/
structure Undoing (parsed : ParsedJournal) (ready : Bool) (count settled : Nat)
    (tail : List Record) : Prop where
  course : Course ready count tail
  descends : Descends tail
  going : Going tail
  announced : ∀ index, .commitIntent index ∈ tail ↔ index ∈ parsed.commitIntents
  reversing : ∀ index, index + settled < parsed.paths.length →
    (.rollbackIntent index ∈ tail ↔ index ∈ parsed.rollbackIntents)
  reversed : ∀ index, index + settled < parsed.paths.length →
    (.rolledBack index ∈ tail ↔ index ∈ parsed.rolledBack)
  done : ∀ index, parsed.paths.length ≤ index + settled → .commitIntent index ∈ tail →
    .rolledBack index ∈ tail

variable {parsed : ParsedJournal} {settled : Nat}

/-- The intent to restore the next path may follow. -/
theorem Undoing.intent (undoing : Undoing parsed ready count settled tail)
    (place : parsed.paths.length = settled + index + 1) (announced : index ∈ parsed.commitIntents)
    (fresh : index ∉ parsed.rollbackIntents) :
    Course ready count (tail ++ [.rollbackIntent index]) ∧
      Descends (tail ++ [.rollbackIntent index]) := by
  have among := (undoing.announced index).mpr announced
  have unbegun : .rollbackIntent index ∉ tail := fun again =>
    fresh ((undoing.reversing index (by omega)).mp again)
  have above : ∀ other,
      .rollbackIntent other ∈ tail → .rolledBack other ∈ tail ∧ index < other := by
    intro other begun
    by_cases lower : other ≤ index
    · exact absurd (undoing.descends undoing.going index other among begun lower) unbegun
    · refine ⟨undoing.done other (by omega) (undoing.course.announcing begun), by omega⟩
  refine ⟨undoing.course.snoc ⟨undoing.going, among, above⟩,
    fun going upper lower up down below => ?_⟩
  have upper_among : .commitIntent upper ∈ tail := by simpa using up
  by_cases here : upper = index
  · subst here
    exact List.mem_append_right _ List.mem_cons_self
  · refine List.mem_append_left _ ?_
    rcases List.mem_append.mp down with earlier | last
    · exact undoing.descends undoing.going upper lower upper_among earlier below
    · cases List.mem_singleton.mp last
      exact undoing.course.reversal (undoing.done upper (by omega) upper_among)

/-- So may its completion, when it is the last that was begun. -/
theorem restored_last (course : Course ready count tail) (descends : Descends tail)
    (going : Going tail) (begun : .rollbackIntent index ∈ tail)
    (lowest : ∀ other, .rollbackIntent other ∈ tail → index ≤ other)
    (fresh : .rolledBack index ∉ tail) :
    Course ready count (tail ++ [.rolledBack index]) ∧ Descends (tail ++ [.rolledBack index]) := by
  refine ⟨course.snoc ⟨going, begun, lowest, fresh⟩, fun _ upper lower up down below => ?_⟩
  refine List.mem_append_left _ (descends going upper lower ?_ ?_ below)
  · simpa using up
  · simpa using down

theorem going_path (going : Going tail) (kind : OfPath index record) :
    Going (tail ++ [record]) := by
  intro outcome among
  rcases List.mem_append.mp among with earlier | last
  · exact going outcome earlier
  · rcases kind with rfl | rfl | rfl | rfl <;> cases List.mem_singleton.mp last

/-- The next path is settled, whatever was appended for it. -/
theorem Undoing.settle {after : List Record} (undoing : Undoing parsed ready count settled tail)
    (place : parsed.paths.length = settled + index + 1) (course : Course ready count after)
    (descends : Descends after) (going : Going after)
    (same : ∀ record, record ≠ .rollbackIntent index → record ≠ .rolledBack index →
      (record ∈ after ↔ record ∈ tail))
    (restored : .commitIntent index ∈ after → .rolledBack index ∈ after) :
    Undoing parsed ready count (settled + 1) after where
  course := course
  descends := descends
  going := going
  announced := fun other => by
    rw [same _ (by simp) (by simp)]
    exact undoing.announced other
  reversing := fun other below => by
    have apart : other ≠ index := by omega
    rw [same _ (by simpa using apart) (by simp)]
    exact undoing.reversing other (by omega)
  reversed := fun other below => by
    have apart : other ≠ index := by omega
    rw [same _ (by simp) (by simpa using apart)]
    exact undoing.reversed other (by omega)
  done := fun other above announced => by
    by_cases here : other = index
    · subst here
      exact restored announced
    · rw [same _ (by simp) (by simpa using here)]
      rw [same _ (by simp) (by simp)] at announced
      exact undoing.done other (by omega) announced

theorem Undoing.skip (undoing : Undoing parsed ready count settled tail)
    (place : parsed.paths.length = settled + index + 1)
    (settles : index ∉ parsed.commitIntents ∨ index ∈ parsed.rolledBack) :
    Undoing parsed ready count (settled + 1) tail := by
  refine undoing.settle place undoing.course undoing.descends undoing.going
    (fun _ _ _ => Iff.rfl) fun announced => ?_
  rcases settles with silent | restored
  · exact absurd ((undoing.announced index).mp announced) silent
  · exact (undoing.reversed index (by omega)).mpr restored

/-- A restoration that was cut is completed. -/
theorem Undoing.pending (undoing : Undoing parsed ready count settled tail)
    (place : parsed.paths.length = settled + index + 1) (begun : index ∈ parsed.rollbackIntents)
    (fresh : index ∉ parsed.rolledBack) :
    Undoing parsed ready count (settled + 1) (tail ++ [.rolledBack index]) := by
  have among := (undoing.reversing index (by omega)).mpr begun
  have unrestored : .rolledBack index ∉ tail := fun again =>
    fresh ((undoing.reversed index (by omega)).mp again)
  obtain ⟨course, descends⟩ := restored_last undoing.course undoing.descends undoing.going among
    (fun other lower => by
      by_cases below : other < index
      · exact absurd (undoing.course.restored among lower below) unrestored
      · omega) unrestored
  refine undoing.settle place course descends
    (going_path undoing.going (.inr (.inr (.inr rfl)))) (fun record _ other => ?_) fun _ => ?_
  · simp [other]
  · exact List.mem_append_right _ List.mem_cons_self

/-- A path that was announced and not yet restored is restored. -/
theorem Undoing.restore (undoing : Undoing parsed ready count settled tail)
    (place : parsed.paths.length = settled + index + 1) (announced : index ∈ parsed.commitIntents)
    (fresh : index ∉ parsed.rollbackIntents) :
    Undoing parsed ready count (settled + 1)
      (tail ++ [.rollbackIntent index] ++ [.rolledBack index]) := by
  obtain ⟨course, descends⟩ := undoing.intent place announced fresh
  have going := going_path undoing.going (show OfPath index (.rollbackIntent index) from
    .inr (.inr (.inl rfl)))
  have unbegun : .rollbackIntent index ∉ tail := fun again =>
    fresh ((undoing.reversing index (by omega)).mp again)
  have above := (course_snoc_iff.mp course).2.2.2
  obtain ⟨course, descends⟩ := restored_last course descends going
    (List.mem_append_right _ List.mem_cons_self)
    (fun other lower => by
      rcases List.mem_append.mp lower with earlier | last
      · exact Nat.le_of_lt (above other earlier).2
      · cases List.mem_singleton.mp last
        exact Nat.le_refl _)
    (fun again => by
      have restored : .rolledBack index ∈ tail := by simpa using again
      exact unbegun (undoing.course.reversal restored))
  refine undoing.settle place course descends
    (going_path going (.inr (.inr (.inr rfl)))) (fun record first second => ?_) fun _ => ?_
  · simp [first, second]
  · exact List.mem_append_right _ List.mem_cons_self

namespace Logbook

variable {T : Type} {crates : Crates T} {book : Logbook crates} {base first more : List Record}

/-- Only such records are safe after those of the preparation, and none of those
that were there is lost. -/
structure Follows (book : Logbook crates) (base first : List Record) (ready : Bool) (count : Nat) :
    Prop where
  begun : base ≠ []
  safe : ∀ records, book.safe records ↔ ∃ more, records = base ++ (first ++ more) ∧
    Course ready count (first ++ more) ∧ Descends (first ++ more)

theorem Follows.takes (follows : book.Follows base first ready count)
    (course : Course ready count (first ++ more ++ [record]))
    (descends : Descends (first ++ more ++ [record])) :
    book.Takes True (base ++ (first ++ more)) record := by
  have later := course.later (List.mem_append_right _ List.mem_cons_self)
  refine ⟨⟨?_, fun empty => follows.begun (List.append_eq_nil_iff.mp empty).1⟩, ?_, .inr trivial⟩
  · cases record with
    | header => cases later
    | _ => rfl
  · rw [List.append_assoc, List.append_assoc]
    rw [List.append_assoc] at course descends
    exact (follows.safe _).mpr ⟨_, rfl, course, descends⟩

theorem Follows.resumes {records : List Record} (follows : book.Follows base first ready count)
    (tells : parsed.Tells records) :
    book.Resumes True parsed fun settled records => ∃ more, records = base ++ (first ++ more) ∧
      Undoing parsed ready count settled (first ++ more) := by
  refine {
    aborted := ?_
    skipped := ?_
    intent := ?_
    rolledBack := ?_
    pending := ?_
    finished := ?_ }
  · rintro _ idle _ _ ⟨more, rfl, undoing⟩
    have silent : parsed.commitIntents = ∅ := by
      rcases idle with unprepared | silent
      · by_contra announced
        rw [tells.ready announced] at unprepared
        cases unprepared
      · exact silent
    refine follows.takes (undoing.course.snoc ⟨undoing.going, fun index among => ?_⟩)
      (Descends.finish _)
    have announced := (undoing.announced index).mp among
    rw [silent] at announced
    cases announced
  · rintro settled index place settles _ _ ⟨more, rfl, undoing⟩
    exact ⟨more, rfl, undoing.skip place settles⟩
  · rintro settled index place announced fresh _ _ ⟨more, rfl, undoing⟩
    obtain ⟨course, descends⟩ := undoing.intent place announced fresh
    exact follows.takes course descends
  · rintro settled index place announced fresh _ _ ⟨more, rfl, undoing⟩
    have restored := undoing.restore place announced fresh
    have regrouped : first ++ more ++ [.rollbackIntent index] =
        first ++ (more ++ [.rollbackIntent index]) := List.append_assoc _ _ _
    have takes : book.Takes True (base ++ (first ++ (more ++ [.rollbackIntent index])))
        (.rolledBack index) := by
      refine follows.takes ?_ ?_
      · rw [← regrouped]
        exact restored.course
      · rw [← regrouped]
        exact restored.descends
    refine ⟨?_, more ++ [.rollbackIntent index, .rolledBack index], by simp, ?_⟩
    · rw [List.append_assoc, List.append_assoc]
      exact takes
    · simpa using restored
  · rintro settled index place begun fresh _ _ ⟨more, rfl, undoing⟩
    have restored := undoing.pending place begun fresh
    refine ⟨follows.takes restored.course restored.descends, more ++ [.rolledBack index],
      by simp, ?_⟩
    rw [← List.append_assoc]
    exact restored
  · rintro _ announced _ _ ⟨more, rfl, undoing⟩
    obtain ⟨index, among⟩ := Finset.nonempty_iff_ne_empty.mpr announced
    have stands := (undoing.announced index).mpr among
    exact follows.takes (undoing.course.snoc ⟨undoing.going,
      (undoing.course.announced stands).1, index, stands⟩) (Descends.finish _)

/-- Every journal of such records that has not ended can be resumed. -/
theorem Follows.resumable (follows : book.Follows base first ready count)
    (prepares : book.Prepares base) : book.Resumable True := by
  refine ⟨prepares.current, fun records safe index identity backup staged => ?_,
    fun records parsed safe tells unfinished => ?_⟩
  · obtain ⟨more, rfl, course, _⟩ := (follows.safe records).mp safe
    rcases List.mem_append.mp staged with earlier | later
    · exact prepares.foreign index identity backup earlier
    · cases course.later later
  · obtain ⟨more, rfl, course, descends⟩ := (follows.safe records).mp safe
    have told : ∀ {record : Record}, record.prepares = false →
        (record ∈ (base ++ (first ++ more)).tail ↔ record ∈ first ++ more) :=
      prepares.mem_tail follows.begun
    refine ⟨_, ⟨more, rfl, ?_⟩, follows.resumes tells⟩
    refine ⟨course, descends, fun outcome among => ?_, fun index => ?_, fun index _ => ?_,
      fun index _ => ?_, fun index above among => ?_⟩
    · have ended := (tells.outcomes outcome).mpr ((told rfl).mpr among)
      rw [unfinished] at ended
      cases ended
    · rw [tells.announced, told rfl]
    · rw [tells.reversing, told rfl]
    · rw [tells.reversed, told rfl]
    · have bound := tells.bounded index ((tells.announced index).mpr ((told rfl).mpr among))
      omega

theorem Cautious.survives {host : Host} {weather : Weather} {mayRefuse : Prop} {ρ : Type}
    {op : FsOp ρ} {here : World} (cautious : book.Cautious host weather mayRefuse op here) :
    (fsMachine host weather).Survives book.Recorded op here := by
  cases op with
  | io call => exact cautious
  | unlock file => exact cautious
  | refuseAppend =>
      obtain ⟨recorded, _⟩ := cautious
      exact ⟨recorded, fun left torn => by rw [show left = here from torn]; exact recorded⟩

/-- However a program ends that leaves the journal safe, the journal is safe. -/
theorem recorded_crashes {host : Host} {weather : Weather} {mayRefuse : Prop} {α : Type}
    {program : Task FsOp α} {start left : World}
    (meets : program.Meets (fsMachine host weather) (book.Cautious host weather mayRefuse)
      (fun _ finish => book.Recorded finish) start)
    (crashed : program.Crashes (fsMachine host weather) start left) : book.Recorded left :=
  Task.Meets.crashes (meets.guard_mono fun _ _ => Cautious.survives) (fun _ _ recorded => recorded)
    crashed

end Logbook

theorem preparation_append (prepares : ∀ record ∈ past, record.prepares = true)
    (later : ∀ record ∈ tail, record.prepares = false) :
    preparation (past ++ tail) = past ∧ aftermath (past ++ tail) = tail := by
  have stops : ∀ record ∈ tail.head?, ¬ record.prepares = true := fun record first => by
    rw [later record (List.mem_of_mem_head? first)]
    exact Bool.false_ne_true
  unfold preparation aftermath
  rw [List.takeWhile_append_of_pos prepares, List.dropWhile_append_of_pos prepares]
  cases tail with
  | nil => simp
  | cons record rest =>
      have stop := later record List.mem_cons_self
      simp [stop]

theorem split_records (records : List Record) :
    records = preparation records ++ aftermath records :=
  List.takeWhile_append_dropWhile.symm

/-! ### Recoveries of one journal -/

section

variable {T : Type} (crates : Crates T) (host : Host) (weather : Weather) (root : FsRoot)
  (options : WorktreeOptions) (dir : Ino)

/-- The operation journal in this directory. -/
def operationBook (file : Ino) (bounded : options.limits.maxJournalBytes < u64Max)
    (safe : List Record → Prop) : Logbook crates where
  slot := host.slot dir operationJournal
  file := file
  schema := .current
  maxBytes := options.limits.maxJournalBytes
  bounded := bounded
  safe := safe

/-- The same journal, where recoveries only append what keeps it in order. -/
def recoveryBook (file : Ino) (bounded : options.limits.maxJournalBytes < u64Max)
    (records : List Record) : Logbook crates :=
  operationBook crates host options dir file bounded fun found =>
    ∃ more, found = preparation records ++ (aftermath records ++ more) ∧
      Course ((preparation records).any Record.completes)
        ((preparation records).countP Record.announces) (aftermath records ++ more) ∧
      Descends (aftermath records ++ more)

/-- A journal of these records waits to be recovered: the root leads to it, and none
of the files it names as staged is the journal. -/
structure Awaits (file : Ino) (records : List Record) (world : World) : Prop where
  bounded : options.limits.maxJournalBytes < u64Max
  logged : (operationBook crates host options dir file bounded fun _ => True).Logged records world
  begun : records ≠ []
  foreign : ∀ index identity backup, .pathStaged index (some identity) backup ∈ records →
    identity.inode ≠ file
  controls : FsRoot.Controls host root dir world

/-- After any recoveries, each of them ended or cut, the journal is still there; others
may have changed what they like but the journal and the directories to it. -/
inductive Recoveries (start : World) : World → Prop
  | none : Recoveries start start
  | ended {world : World} (earlier : Recoveries start world)
      (result : Except WorktreeError (Option RecoveryReport)) (finish : World)
      (returned : (recoverOperationTransaction crates root options).run.Returns
        (fsMachine host weather) world result finish)
      (there : (finish.look (host.slot dir operationJournal)).isSome = true) :
      Recoveries start finish
  | cut {world : World} (earlier : Recoveries start world) (left : World)
      (crashed : (recoverOperationTransaction crates root options).run.Crashes
        (fsMachine host weather) world left)
      (there : (left.look (host.slot dir operationJournal)).isSome = true) :
      Recoveries start left.reboot
  | others {world : World} (earlier : Recoveries start world) (finish : World)
      (same : finish.look (host.slot dir operationJournal) =
        world.look (host.slot dir operationJournal))
      (controls : FsRoot.Controls host root dir finish) : Recoveries start finish

variable {crates host weather root options dir} {file : Ino} {records : List Record}
  {start world : World}

/-- The first record of a journal is its header. -/
theorem ordered_begins (ordered : Ordered 0 records) (begun : records ≠ []) :
    preparation records ≠ [] := by
  cases records with
  | nil => exact absurd rfl begun
  | cons record rest =>
      have header := ordered.1.mpr rfl
      cases record with
      | header => exact List.cons_ne_nil _ _
      | _ => cases header

theorem Awaits.begins (awaits : Awaits crates host root options dir file records start) :
    preparation records ≠ [] :=
  ordered_begins awaits.logged.ordered awaits.begun

/-- A recovery leaves the journal safe. -/
theorem recovery_meets {book : Logbook crates} (resumable : book.Resumable True)
    (located : book.Located host root dir options)
    (recorded : book.Recorded world)
    (there : (world.look (host.slot dir operationJournal)).isSome = true)
    (controls : FsRoot.Controls host root dir world) :
    (recoverOperationTransaction crates root options).run.Meets (fsMachine host weather)
      (book.Cautious host weather True) (fun _ finish => book.Recorded finish) world := by
  rcases recorded with gone | ⟨records, safe, logged⟩
  · rw [← located.slot, gone] at there
    cases there
  · exact Logbook.recover_meets resumable located controls safe logged

/-- What one recovery keeps, any number of them keep. -/
theorem recoveries_keep {book : Logbook crates} (resumable : book.Resumable True)
    (located : book.Located host root dir options) (recorded : book.Recorded start)
    (there : (start.look (host.slot dir operationJournal)).isSome = true)
    (controls : FsRoot.Controls host root dir start)
    (recoveries : Recoveries crates host weather root options dir start world) :
    book.Recorded world ∧ (world.look (host.slot dir operationJournal)).isSome = true ∧
      FsRoot.Controls host root dir world := by
  have leads : (fsMachine host weather).Maintains (fun _ => True)
      (FsRoot.Controls host root dir) := FsRoot.controls_maintains root dir
  induction recoveries with
  | none => exact ⟨recorded, there, controls⟩
  | ended _ result finish returned there ih =>
      obtain ⟨recorded, before, controls⟩ := ih
      exact ⟨(recovery_meets resumable located recorded before controls).returns returned, there,
        (Task.maintains_meets leads _ controls).returns returned⟩
  | cut _ left crashed there ih =>
      obtain ⟨recorded, before, controls⟩ := ih
      have after : FsRoot.Controls host root dir left :=
        (Task.maintains_meets leads _ controls).crashes (fun _ _ => id) crashed
      have left := Logbook.recorded_crashes
        (recovery_meets resumable located recorded before controls) crashed
      exact ⟨left.congr rfl, there, after⟩
  | others _ finish same controls ih =>
      obtain ⟨recorded, before, _⟩ := ih
      refine ⟨recorded.congr ?_, ?_, controls⟩
      · rw [located.slot]
        exact same
      · rw [same]
        exact before

/-- Wherever the preparation of a journal is parsed the whole of it is, and it is found
corrupt nowhere else. -/
def Acceptable (crates : Crates T) (root : FsRoot) (options : WorktreeOptions)
    (records : List Record) : Prop :=
  ∀ (host : Host) (weather : Weather) (start finish : World),
    ((∃ parsed, Parses crates host weather root options start finish records (.ok parsed)) ↔
      ∃ parsed, Parses crates host weather root options start finish (preparation records)
        (.ok parsed)) ∧
    ((∃ error : WorktreeError, error.code = .journalCorrupt ∧
        Parses crates host weather root options start finish records (.error error)) ↔
      ∃ error : WorktreeError, error.code = .journalCorrupt ∧
        Parses crates host weather root options start finish (preparation records) (.error error))

theorem InOrder.acceptable (order : InOrder records) : Acceptable crates root options records := by
  intro host weather start finish
  constructor
  · rw [parses_ok_iff]
    exact and_iff_left order
  · rw [parses_corrupt_iff]
    exact or_iff_left fun disorder => disorder.2 order

/-- None of the files that the records name as staged is the journal. -/
def Foreign (file : Ino) (records : List Record) : Prop :=
  ∀ index identity backup, .pathStaged index (some identity) backup ∈ records →
    identity.inode ≠ file

section

variable {bounded : options.limits.maxJournalBytes < u64Max}

/-- A journal in order can be resumed, as long as only what keeps it in order is appended. -/
theorem recoveryBook_resumable (begins : preparation records ≠ [])
    (foreign : Foreign file records) :
    (recoveryBook crates host options dir file bounded records).Resumable True := by
  have follows : (recoveryBook crates host options dir file bounded records).Follows
      (preparation records) (aftermath records) _ _ := ⟨begins, fun _ => Iff.rfl⟩
  refine follows.resumable ⟨rfl, preparation_prepares, fun index identity backup staged => ?_⟩
  apply foreign index identity backup
  rw [split_records records]
  exact List.mem_append_left _ staged

theorem recoveryBook_safe (order : InOrder records) (descends : Descends (aftermath records)) :
    (recoveryBook crates host options dir file bounded records).safe records := by
  refine ⟨[], ?_, ?_, ?_⟩ <;> rw [List.append_nil]
  · exact split_records records
  · exact order
  · exact descends

/-- What is safe then is in order, with all the records that were there. -/
theorem recoveryBook_order (foreign : Foreign file records) {found : List Record}
    (safe : (recoveryBook crates host options dir file bounded records).safe found) :
    ∃ more, found = records ++ more ∧ InOrder found ∧ Descends (aftermath found) ∧
      Foreign file found := by
  obtain ⟨more, same, course, descends⟩ := safe
  have joined : found = records ++ more := by
    rw [same, ← List.append_assoc, ← split_records]
  obtain ⟨before, after⟩ := preparation_append preparation_prepares fun record among =>
    course.later among
  rw [← same] at before after
  refine ⟨more, joined, ?_, ?_, fun index identity backup staged => ?_⟩
  · unfold InOrder
    rw [before, after]
    exact course
  · rw [after]
    exact descends
  · rw [same] at staged
    rcases List.mem_append.mp staged with earlier | later
    · apply foreign index identity backup
      rw [split_records records]
      exact List.mem_append_left _ earlier
    · cases course.later later

end

/-- A journal in order stays in order and can be replayed again, with all its records,
however many recoveries are cut or fail and whatever fails in them. -/
theorem recoveries_inOrder
    (awaits : Awaits crates host root options dir file records start) (order : InOrder records)
    (descends : Descends (aftermath records))
    (recoveries : Recoveries crates host weather root options dir start world) :
    ∃ more, Awaits crates host root options dir file (records ++ more) world ∧
      InOrder (records ++ more) ∧ Descends (aftermath (records ++ more)) ∧
      Acceptable crates root options (records ++ more) := by
  let book := recoveryBook crates host options dir file awaits.bounded records
  have safe : book.safe records := recoveryBook_safe order descends
  have logged : book.Logged records start := ⟨awaits.logged.stores, awaits.logged.ordered⟩
  obtain ⟨seen, _, shows, _⟩ := logged.seen
  have there : (start.look (host.slot dir operationJournal)).isSome = true := by
    rw [show start.look (host.slot dir operationJournal) = some seen from shows]
    rfl
  obtain ⟨recorded, there, controls⟩ := recoveries_keep
    (recoveryBook_resumable awaits.begins awaits.foreign) ⟨rfl, rfl⟩ (logged.recorded safe) there
    awaits.controls recoveries
  rcases recorded with gone | ⟨found, safe, logged⟩
  · rw [show world.look (host.slot dir operationJournal) = none from gone] at there
    cases there
  · obtain ⟨more, rfl, order, descends, foreign⟩ := recoveryBook_order awaits.foreign safe
    have begun : records ++ more ≠ [] := fun empty =>
      awaits.begun (List.append_eq_nil_iff.mp empty).1
    exact ⟨more, ⟨awaits.bounded, ⟨logged.stores, logged.ordered⟩, begun, foreign, controls⟩, order,
      descends, order.acceptable⟩

end

/-! ### Commits and their restoration -/

section

variable {top done : Nat}

theorem reversing_after (forward : Forward tail) (within : done ≤ top) :
    .rollbackIntent index ∈ tail ++ rolling top done ↔ top - done ≤ index ∧ index < top := by
  rw [List.mem_append, mem_rolling within]
  constructor
  · rintro (earlier | ⟨other, above, below, same | same⟩)
    · exact absurd earlier (forward_still forward index)
    · cases same
      exact ⟨above, below⟩
    · cases same
  · rintro ⟨above, below⟩
    exact .inr ⟨index, above, below, .inl rfl⟩

theorem reversed_after (forward : Forward tail) (within : done ≤ top) :
    .rolledBack index ∈ tail ++ rolling top done ↔ top - done ≤ index ∧ index < top := by
  rw [List.mem_append, mem_rolling within]
  constructor
  · rintro (earlier | ⟨other, above, below, same | same⟩)
    · obtain ⟨other, same | same⟩ := forward _ earlier <;> cases same
    · cases same
    · cases same
      exact ⟨above, below⟩
  · rintro ⟨above, below⟩
    exact .inr ⟨index, above, below, .inr rfl⟩

theorem Forward.descends (forward : Forward tail) : Descends tail :=
  fun _ _ lower _ begun _ => absurd begun (forward_still forward lower)

theorem course_announce (course : Course true count (committing index)) (bound : index < count) :
    Course true count (committing index ++ [.commitIntent index]) := by
  refine course.snoc ⟨rfl, bound, forward_committing index, fun other among => ?_⟩
  obtain ⟨found, below, same | same⟩ := mem_committing.mp among
  · cases same
    exact ⟨mem_committing.mpr ⟨other, below, .inr rfl⟩, below⟩
  · cases same

theorem course_committing (bound : index ≤ count) : Course true count (committing index) := by
  induction index with
  | zero => exact .nil
  | succ index ih =>
      have announced := course_announce (ih (by omega)) (show index < count from bound)
      have recorded : Course true count
          (committing index ++ [.commitIntent index] ++ [.committed index]) :=
        announced.snoc ⟨forward_announcing index, List.mem_append_right _ List.mem_cons_self,
          fun other among => ?_, fun again => ?_⟩
      · rwa [List.append_assoc] at recorded
      · rcases List.mem_append.mp among with earlier | last
        · obtain ⟨found, below, same | same⟩ := mem_committing.mp earlier <;> cases same
          exact Nat.le_of_lt below
        · cases List.mem_singleton.mp last
          exact Nat.le_refl _
      · rcases List.mem_append.mp again with earlier | last
        · obtain ⟨found, below, same | same⟩ := mem_committing.mp earlier <;> cases same
          exact absurd below (Nat.lt_irrefl _)
        · cases List.mem_singleton.mp last

/-- The restoration of the next path may be announced. -/
theorem course_reverse (forward : Forward tail)
    (course : Course ready count (tail ++ rolling top done))
    (announced : ∀ index, index < top → .commitIntent index ∈ tail) (bound : done < top) :
    Course ready count (tail ++ rolling top done ++ [.rollbackIntent (top - 1 - done)]) := by
  refine course.snoc ⟨rolling_going forward (Nat.le_of_lt bound),
    List.mem_append_left _ (announced _ (by omega)), fun other among => ?_⟩
  rw [reversing_after forward (Nat.le_of_lt bound)] at among
  refine ⟨(reversed_after forward (Nat.le_of_lt bound)).mpr among, by omega⟩

/-- A commit whose first paths are restored, the latest first. -/
theorem course_rolling (forward : Forward tail) (course : Course ready count tail)
    (announced : ∀ index, index < top → .commitIntent index ∈ tail) (bound : done ≤ top) :
    Course ready count (tail ++ rolling top done) := by
  induction done with
  | zero =>
      rw [rolling, List.append_nil]
      exact course
  | succ done ih =>
      have reversing := course_reverse forward (ih (by omega)) announced bound
      have restored : Course ready count (tail ++ rolling top done ++
          [.rollbackIntent (top - 1 - done)] ++ [.rolledBack (top - 1 - done)]) :=
        reversing.snoc ⟨fun outcome among => ?_, List.mem_append_right _ List.mem_cons_self,
          fun other among => ?_, fun again => ?_⟩
      · rw [rolling]
        simpa using restored
      · rcases List.mem_append.mp among with earlier | last
        · exact rolling_going forward (Nat.le_of_lt bound) outcome earlier
        · cases List.mem_singleton.mp last
      · rcases List.mem_append.mp among with earlier | last
        · rw [reversing_after forward (Nat.le_of_lt bound)] at earlier
          omega
        · cases List.mem_singleton.mp last
          exact Nat.le_refl _
      · rcases List.mem_append.mp again with earlier | last
        · rw [reversed_after forward (Nat.le_of_lt bound)] at earlier
          omega
        · cases List.mem_singleton.mp last

/-- When nothing was announced above those paths, they are restored from above. -/
theorem descends_reverse (forward : Forward tail)
    (highest : ∀ index, .commitIntent index ∈ tail → index < top) (bound : done < top) :
    Descends (tail ++ rolling top done ++ [.rollbackIntent (top - 1 - done)]) := by
  intro _ upper lower up down below
  have within := Nat.le_of_lt bound
  have least : top - 1 - done ≤ lower := by
    rcases List.mem_append.mp down with earlier | last
    · rw [reversing_after forward within] at earlier
      omega
    · cases List.mem_singleton.mp last
      exact Nat.le_refl _
  have most : upper < top := by
    refine highest upper ?_
    rcases List.mem_append.mp up with earlier | last
    · rcases List.mem_append.mp earlier with first | second
      · exact first
      · obtain ⟨_, _, _, same | same⟩ := (mem_rolling within).mp second <;> cases same
    · cases List.mem_singleton.mp last
  by_cases here : upper = top - 1 - done
  · subst here
    exact List.mem_append_right _ List.mem_cons_self
  · exact List.mem_append_left _ ((reversing_after forward within).mpr ⟨by omega, most⟩)

theorem descends_rolling (forward : Forward tail)
    (highest : ∀ index, .commitIntent index ∈ tail → index < top) (bound : done ≤ top) :
    Descends (tail ++ rolling top done) := by
  cases done with
  | zero =>
      rw [rolling, List.append_nil]
      exact forward.descends
  | succ done =>
      have reversing := descends_reverse forward highest bound
      rw [rolling]
      intro _ upper lower up down below
      have among := reversing (fun outcome found => ?_) upper lower (by simpa using up)
        (by simpa using down) below
      · simpa using among
      · rcases List.mem_append.mp found with earlier | last
        · exact rolling_going forward (Nat.le_of_lt bound) outcome earlier
        · cases List.mem_singleton.mp last

theorem highest_committing (announced : .commitIntent index ∈ committing top) : index < top := by
  obtain ⟨other, below, same | same⟩ := mem_committing.mp announced <;> cases same
  exact below

theorem highest_announcing
    (announced : .commitIntent index ∈ committing top ++ [.commitIntent top]) :
    index < top + 1 := by
  rcases List.mem_append.mp announced with earlier | last
  · exact Nat.lt_succ_of_lt (highest_committing earlier)
  · cases List.mem_singleton.mp last
    exact Nat.lt_succ_self _

theorem announced_committing (below : index < top) : .commitIntent index ∈ committing top :=
  mem_committing.mpr ⟨index, below, .inl rfl⟩

theorem announced_announcing (below : index < top + 1) :
    .commitIntent index ∈ committing top ++ [.commitIntent top] := by
  by_cases here : index = top
  · subst here
    exact List.mem_append_right _ List.mem_cons_self
  · exact List.mem_append_left _ (announced_committing (by omega))

/-- The path that failed was announced, and those before it are restored without it. -/
def Skips (count : Nat) (tail : List Record) : Prop :=
  ∃ index done, done < index ∧ index < count ∧
    (tail = committing index ++ [.commitIntent index] ++ rolling index done ++
        [.rollbackIntent (index - 1 - done)] ∨
      tail = committing index ++ [.commitIntent index] ++ rolling index (done + 1))

/-- What an ending appends. -/
def Ends (count : Nat) (tail : List Record) : Prop :=
  Course true count tail ∧ (Descends tail ∨ Skips count tail) ∨ tail = [.finished .rolledBack]

end

namespace Logbook

variable {T : Type} {crates : Crates T} {book : Logbook crates} {base : List Record} {top : Nat}

/-- Only what an ending appends is safe after the records of the preparation. -/
structure Closing (book : Logbook crates) (base : List Record) (count : Nat) : Prop where
  begun : base ≠ []
  safe : ∀ records, book.safe records ↔ ∃ tail, records = base ++ tail ∧ Ends count tail

theorem Closing.takes (closing : book.Closing base count) (body : record.isHeader = false)
    (ends : Ends count (tail ++ [record])) : book.Takes True (base ++ tail) record := by
  refine ⟨⟨body, fun empty => closing.begun (List.append_eq_nil_iff.mp empty).1⟩, ?_, .inr trivial⟩
  rw [List.append_assoc]
  exact (closing.safe _).mpr ⟨_, rfl, ends⟩

theorem Closing.commits (closing : book.Closing base count) : book.Commits True base count := by
  refine ⟨fun index bound => ?_, fun index bound => ?_, ?_, ?_⟩
  · exact closing.takes rfl (.inl ⟨course_announce (course_committing (Nat.le_of_lt bound)) bound,
      .inl (forward_announcing index).descends⟩)
  · have recorded : Ends count (committing (index + 1)) :=
      .inl ⟨course_committing bound, .inl (forward_committing _).descends⟩
    rw [committing] at recorded
    rw [List.append_assoc]
    exact closing.takes rfl (by simpa using recorded)
  · refine closing.takes rfl (.inl ⟨(course_committing (Nat.le_refl _)).snoc
      ⟨forward_going (forward_committing _), rfl, fun index below => ?_⟩, .inl (Descends.finish _)⟩)
    exact mem_committing.mpr ⟨index, below, .inr rfl⟩
  · have alone : Ends count ([] ++ [.finished .aborted]) :=
      .inl ⟨Course.nil.snoc ⟨fun _ => List.not_mem_nil, fun _ => List.not_mem_nil⟩,
        .inl (Descends.finish _)⟩
    have aborted := closing.takes rfl alone
    rwa [List.append_nil] at aborted

/-- A restoration of all paths that were announced. -/
theorem Closing.restores (closing : book.Closing base count) (forward : Forward tail)
    (course : Course true count tail) (some_path : 0 < top)
    (announced : ∀ index, index < top → .commitIntent index ∈ tail)
    (highest : ∀ index, .commitIntent index ∈ tail → index < top) :
    book.Restores True (base ++ tail) top := by
  refine ⟨fun done bound => ?_, fun done bound => ?_, ?_⟩
  · rw [List.append_assoc]
    exact closing.takes rfl (.inl ⟨course_reverse forward
      (course_rolling forward course announced (Nat.le_of_lt bound)) announced bound,
      .inl (descends_reverse forward highest bound)⟩)
  · have restored : Ends count (tail ++ rolling top (done + 1)) :=
      .inl ⟨course_rolling forward course announced bound,
        .inl (descends_rolling forward highest bound)⟩
    rw [rolling] at restored
    rw [List.append_assoc, List.append_assoc]
    exact closing.takes rfl (by simpa using restored)
  · rw [List.append_assoc]
    have course := course_rolling forward course announced (Nat.le_refl _)
    refine closing.takes rfl (.inl ⟨course.snoc ⟨rolling_going forward (Nat.le_refl _), rfl, 0, ?_⟩,
      .inl (Descends.finish _)⟩)
    exact List.mem_append_left _ (announced 0 some_path)

/-- A restoration of the paths before the one that was announced last. -/
theorem Closing.restores_unchanged (closing : book.Closing base count) (bound : index < count) :
    book.Restores True (base ++ (committing index ++ [.commitIntent index])) index := by
  have forward := forward_announcing index
  have course := course_announce (course_committing (Nat.le_of_lt bound)) bound
  have announced : ∀ other, other < index →
      .commitIntent other ∈ committing index ++ [.commitIntent index] := fun other below =>
    announced_announcing (Nat.lt_succ_of_lt below)
  refine ⟨fun done below => ?_, fun done below => ?_, ?_⟩
  · rw [List.append_assoc]
    exact closing.takes rfl (.inl ⟨course_reverse forward
      (course_rolling forward course announced (Nat.le_of_lt below)) announced below,
      .inr ⟨index, done, below, bound, .inl rfl⟩⟩)
  · have restored : Ends count (committing index ++ [.commitIntent index] ++
        rolling index (done + 1)) :=
      .inl ⟨course_rolling forward course announced below,
        .inr ⟨index, done, below, bound, .inr rfl⟩⟩
    rw [rolling] at restored
    rw [List.append_assoc, List.append_assoc]
    exact closing.takes rfl (by simpa using restored)
  · rw [List.append_assoc]
    have course := course_rolling forward course announced (Nat.le_refl _)
    refine closing.takes rfl (.inl ⟨course.snoc ⟨rolling_going forward (Nat.le_refl _), rfl, index,
      ?_⟩, .inl (Descends.finish _)⟩)
    exact List.mem_append_left _ (announced_announcing (Nat.lt_succ_self _))

theorem Closing.reverts (closing : book.Closing base count) : book.Reverts True base count := by
  refine ⟨fun index bound => ?_, fun index bound => ?_, fun index bound => ?_⟩
  · cases index with
    | zero =>
        refine ⟨fun done below => absurd below (Nat.not_lt_zero _),
          fun done below => absurd below (Nat.not_lt_zero _), ?_⟩
        simp only [committing, rolling, List.append_nil]
        have alone : Ends count ([] ++ [.finished .rolledBack]) := .inr rfl
        have ended := closing.takes rfl alone
        rwa [List.append_nil] at ended
    | succ index =>
        exact closing.restores (forward_committing _) (course_committing (Nat.le_of_lt bound))
          (Nat.succ_pos _) (fun _ => announced_committing) fun _ => highest_committing
  · rw [List.append_assoc]
    exact closing.restores_unchanged bound
  · rw [List.append_assoc]
    exact closing.restores (forward_announcing _)
      (course_announce (course_committing (Nat.le_of_lt bound)) bound) (Nat.succ_pos _)
      (fun _ => announced_announcing) fun _ => highest_announcing

end Logbook

/-! ### The endings of a transaction -/

section

variable {T : Type} {crates : Crates T} {host : Host} {weather : Weather}
  {transaction : PreparedWorktreeTransaction} {base : List Record} {start : World}

/-- The journal of the transaction, where endings only append what they append. -/
def PreparedWorktreeTransaction.closingBook (transaction : PreparedWorktreeTransaction)
    (crates : Crates T) (host : Host) (base : List Record)
    (bounded : transaction.journal.maxBytes < u64Max) : Logbook crates :=
  { transaction.reserve crates host base bounded with
    safe := fun records => ∃ tail, records = base ++ tail ∧ Ends transaction.paths.length tail }

/-- Whatever comes of a session, dropping its writer and its lock leaves the journal. -/
theorem Logbook.Closes.released {book : Logbook crates} {α : Type} {session : Journaled α}
    {pre : List Record → Prop}
    (closes : book.Closes (fsMachine host weather) (book.Cautious host weather True)
      session.run pre)
    (begins : book.Session pre transaction.journal start) :
    (do let _ ← (transaction.consume session).run : Task FsOp Unit).Meets (fsMachine host weather)
      (book.Cautious host weather True) (fun _ finish => book.Recorded finish) start := by
  unfold PreparedWorktreeTransaction.consume holding
  rw [Task.meets_bind, ExceptT.run_mk, Task.meets_bind, ExceptT.run_mk, Task.meets_bind]
  refine (closes transaction.journal start begins).mono fun result middle recorded => ?_
  refine ⟨⟨recorded, fun _ => False.elim⟩, fun answer finish stepped => ?_⟩
  cases stepped
  exact recorded.congr rfl

/-- Whatever becomes of an ending, the journal is gone or is as endings leave it. -/
theorem ReadyHere.closes (ready : ReadyHere crates host transaction base start) (ending : Ending) :
    (ending.run crates transaction).Meets (fsMachine host weather)
      ((transaction.closingBook crates host base ready.bounded).Cautious host weather True)
      (fun _ finish => (transaction.closingBook crates host base ready.bounded).Recorded finish)
      start := by
  have closing : (transaction.closingBook crates host base ready.bounded).Closing base
      transaction.paths.length := ⟨ready.begun, fun _ => Iff.rfl⟩
  have apart : ∀ path ∈ transaction.paths,
      (transaction.closingBook crates host base ready.bounded).Apart host path :=
    fun path among => ⟨(ready.apart path among).present, (ready.apart path among).staged⟩
  have session : (transaction.closingBook crates host base ready.bounded).Session
      (fun records => records = base) transaction.journal start := by
    refine ⟨base, ⟨[], (List.append_nil base).symm, .inl ⟨.nil, .inl ?_⟩⟩, .inl ⟨⟨?_, ?_, ?_, ?_⟩,
      rfl⟩⟩
    · exact fun _ _ _ announced => absurd announced List.not_mem_nil
    · exact ready.journal.stores
    · exact ready.journal.knows
    · exact ready.journal.ordered
    · exact ready.journal.fits
  cases ending with
  | commit =>
      exact (Logbook.commitJournaled_closes transaction closing.commits closing.reverts
        ready.indexed apart).released session
  | commitRetained retention =>
      exact (Logbook.commitRetainedJournaled_closes transaction retention closing.commits
        closing.reverts ready.indexed apart).released session
  | abort =>
      exact (Logbook.abortJournaled_closes transaction closing.commits.aborted).released session
  | drop =>
      refine ⟨⟨session.recorded, fun _ => False.elim⟩, fun answer finish stepped => ?_⟩
      cases stepped
      exact session.recorded.congr rfl

/-- What an ending may leave: no journal, or one in order that recoveries keep in order,
unless a path that was announced and did not change is left out of the restoration; or
one that was restored before anything was announced. -/
def LeavesJournal (crates : Crates T) (host : Host) (transaction : PreparedWorktreeTransaction)
    (base : List Record) (world : World) : Prop :=
  world.look (host.slot transaction.control.dir operationJournal) = none ∨
    ∃ tail file, Awaits crates host transaction.root transaction.options transaction.control.dir
        file (base ++ tail) world ∧
      (InOrder (base ++ tail) ∧ (Descends tail ∨ Skips transaction.paths.length tail) ∨
        tail = [.finished .rolledBack])

/-- A journal that an ending left: the records of the preparation, and those of the ending
after them. -/
structure Closed (crates : Crates T) (host : Host) (transaction : PreparedWorktreeTransaction)
    (bounded : transaction.options.limits.maxJournalBytes < u64Max) (base tail : List Record)
    (world : World) : Prop where
  ends : Ends transaction.paths.length tail
  before : preparation (base ++ tail) = base
  after : aftermath (base ++ tail) = tail
  logged : (operationBook crates host transaction.options transaction.control.dir
    transaction.journal.file bounded fun _ => True).Logged (base ++ tail) world
  foreign : Foreign transaction.journal.file (base ++ tail)

theorem ReadyHere.limited (ready : ReadyHere crates host transaction base start) :
    transaction.options.limits.maxJournalBytes < u64Max := by
  rw [ready.limit]
  exact ready.bounded

theorem ReadyHere.closed (ready : ReadyHere crates host transaction base start) {world : World}
    (recorded : (transaction.closingBook crates host base ready.bounded).Recorded world) :
    world.look (host.slot transaction.control.dir operationJournal) = none ∨
      ∃ tail, Closed crates host transaction ready.limited base tail world := by
  rcases recorded with gone | ⟨records, ⟨tail, rfl, ends⟩, logged⟩
  · exact .inl gone
  have later : ∀ record ∈ tail, record.prepares = false := by
    intro record among
    rcases ends with ⟨course, _⟩ | same
    · exact course.later among
    · rw [same] at among
      cases List.mem_singleton.mp among
      rfl
  obtain ⟨before, after⟩ := preparation_append ready.prepares.prepares later
  obtain ⟨torn, unfinished, fits, stores⟩ := logged.stores
  have current : (transaction.closingBook crates host base ready.bounded).schema = .current :=
    ready.prepares.current
  rw [current] at fits stores
  refine .inr ⟨tail, ends, before, after, ⟨⟨torn, unfinished, ?_, stores⟩, logged.ordered⟩, ?_⟩
  · exact fits.trans (Nat.le_of_eq ready.limit.symm)
  · intro index identity backup staged
    rcases List.mem_append.mp staged with earlier | last
    · exact ready.prepares.foreign index identity backup earlier
    · cases later _ last

theorem ReadyHere.leaves (ready : ReadyHere crates host transaction base start)
    (complete : base.any Record.completes = true)
    (counted : base.countP Record.announces = transaction.paths.length) {world : World}
    (controls : FsRoot.Controls host transaction.root transaction.control.dir world)
    (recorded : (transaction.closingBook crates host base ready.bounded).Recorded world) :
    LeavesJournal crates host transaction base world := by
  rcases ready.closed recorded with gone | ⟨tail, closed⟩
  · exact .inl gone
  have begun : base ++ tail ≠ [] := fun empty => ready.begun (List.append_eq_nil_iff.mp empty).1
  refine .inr ⟨tail, transaction.journal.file,
    ⟨ready.limited, closed.logged, begun, closed.foreign, controls⟩, ?_⟩
  refine closed.ends.imp_left fun ordered => ⟨?_, ordered.2⟩
  unfold InOrder
  rw [closed.before, closed.after, complete, counted]
  exact ordered.1

/-- However a prepared transaction is ended or cut, and whatever fails, its journal is gone
or as it says above. -/
theorem ending_inOrder (ready : ReadyHere crates host transaction base start)
    (complete : base.any Record.completes = true)
    (counted : base.countP Record.announces = transaction.paths.length) (ending : Ending) :
    (∀ finish, (ending.run crates transaction).Returns (fsMachine host weather) start () finish →
      LeavesJournal crates host transaction base finish) ∧
    ∀ left, (ending.run crates transaction).Crashes (fsMachine host weather) start left →
      LeavesJournal crates host transaction base left.reboot := by
  have leads : (fsMachine host weather).Maintains (fun _ => True)
      (FsRoot.Controls host transaction.root transaction.control.dir) :=
    FsRoot.controls_maintains transaction.root transaction.control.dir
  have closes : (ending.run crates transaction).Meets (fsMachine host weather) _ _ start :=
    ready.closes ending
  refine ⟨fun finish returned => ?_, fun left crashed => ?_⟩
  · exact ready.leaves complete counted
      ((Task.maintains_meets leads _ ready.controls).returns returned) (closes.returns returned)
  · have controls : FsRoot.Controls host transaction.root transaction.control.dir left :=
      (Task.maintains_meets leads _ ready.controls).crashes (fun _ _ => id) crashed
    have recorded := Logbook.recorded_crashes closes crashed
    exact ready.leaves complete counted controls (recorded.congr rfl)

end

/-! ### One file created -/

section Creation

theorem ending_inOrder_creation :
    (∀ finish, (Ending.run plainCrates creation .commit).Returns (fsMachine .plain .stormy)
        creationWorld () finish →
      LeavesJournal plainCrates .plain creation creationRecords finish) ∧
    ∀ left, (Ending.run plainCrates creation .commit).Crashes (fsMachine .plain .stormy)
        creationWorld left →
      LeavesJournal plainCrates .plain creation creationRecords left.reboot :=
  ending_inOrder creation_ready (by decide) (by decide) .commit

theorem creation_awaits : Awaits plainCrates .plain creation.root creation.options
    creation.control.dir 4 creationRecords creationWorld := by
  have ready := creation_ready
  exact ⟨ready.bounded, ⟨ready.journal.logged.stores, ready.journal.ordered⟩, ready.begun,
    ready.prepares.foreign, ready.controls⟩

/-- A recovery that is cut when it has removed the stage and recorded its end. -/
def cutRecovery : World :=
  (recoverOperationTransaction plainCrates creation.root creation.options).run.cut
    (fsKernel .plain) 30 creationWorld.reboot

theorem recoveries_inOrder_creation :
    ∃ more, Awaits plainCrates .plain creation.root creation.options creation.control.dir 4
        (creationRecords ++ more) cutRecovery.reboot ∧
      InOrder (creationRecords ++ more) ∧ Descends (aftermath (creationRecords ++ more)) ∧
      Acceptable plainCrates creation.root creation.options (creationRecords ++ more) := by
  have there : (cutRecovery.look ⟨2, operationJournal⟩).isSome = true := by decide +kernel
  have left : Recoveries plainCrates .plain .stormy creation.root creation.options
      creation.control.dir creationWorld creationWorld.reboot :=
    .others .none _ rfl creation_awaits.controls
  have cut : Recoveries plainCrates .plain .stormy creation.root creation.options
      creation.control.dir creationWorld cutRecovery.reboot :=
    .cut left cutRecovery (Task.crashes_cut (step_exec trivial) 30 _ creationWorld.reboot) there
  exact recoveries_inOrder creation_awaits .nil (fun _ _ _ announced => by cases announced) cut

end Creation

end Worktree
