import Worktree.CrashLogic.Outcome
import Worktree.Filesystem.Elsewhere
import Worktree.Journal.Resuming
/-
Sessions that change the worktree beside their journal.

The journal's file keeps its name whatever the session does; what becomes of the
worktree is told by the entries that change.
-/

namespace Worktree

open CrashLogic

section

variable {T : Type} {crates : Crates T} {host : Host} {weather : Weather}

/-- An append keeps what every write to its file keeps. -/
theorem append_keeps_file {inv : World → Prop} {writer : Writer} {world : World}
    (stable : ∀ {ρ : Type} {op : FsOp ρ} {start finish : World} {answer : ρ}, inv start →
      Scribbles writer.file op → (fsMachine host weather).step op start answer finish → inv finish)
    (record : Record) (holds : inv world) :
    ((Writer.append crates record).run.run writer).Meets (fsMachine host weather)
      (fun _ _ => True) (fun result finish => result.2.file = writer.file ∧ inv finish) world := by
  unfold Writer.append
  rw [Task.meets_session_bind, Task.meets_session_get]
  dsimp only
  split
  · exact ⟨rfl, holds⟩
  · rw [Task.meets_session_bind, Task.meets_session_result]
    cases validateOrder writer.nextSeq record (saturatingAdd writer.nextSeq 1) with
    | error error => exact ⟨rfl, holds⟩
    | ok value =>
        dsimp only
        split
        · rw [Task.meets_session_bind, Task.meets_session_task, Task.meets_perform]
          have allowed : Scribbles writer.file FsOp.refuseAppend := trivial
          exact ⟨trivial, fun answer finish stepped => ⟨rfl, stable holds allowed stepped⟩⟩
        · rw [Task.meets_session_bind, Task.meets_session_set]
          dsimp only
          rw [Task.meets_session_bind, Task.meets_session_lift, Logbook.meets_journalIo]
          refine ⟨trivial, fun answer middle wrote => ?_⟩
          have allowed : Scribbles writer.file (FsOp.io (.write writer.file
              (Writer.line crates writer.schema writer.nextSeq record))) := rfl
          have written := stable holds allowed wrote
          cases answer with
          | error error => exact ⟨rfl, written⟩
          | ok value =>
              dsimp only [Except.mapError]
              rw [Task.meets_session_bind, Task.meets_session_lift, Logbook.meets_journalIo]
              refine ⟨trivial, fun answer last synced => ?_⟩
              have same := (quiet_syncFile writer.file middle).2 answer last synced
              subst same
              cases answer with
              | error error => exact ⟨rfl, written⟩
              | ok value =>
                  dsimp only [Except.mapError]
                  rw [Task.meets_session_bind, Task.meets_session_set]
                  dsimp only
                  cases checkedAdd writer.nextSeq 1 with
                  | none => exact ⟨rfl, written⟩
                  | some nextSeq => exact ⟨rfl, written⟩

/-- The journal, and these entries. -/
def Besides (journal : Slot) (own : Slot → Prop) (slot : Slot) : Prop :=
  slot = journal ∨ own slot

theorem besides_mono {journal : Slot} {own wider : Slot → Prop}
    (within : ∀ slot, own slot → wider slot)
    (slot : Slot) : Besides journal own slot → Besides journal wider slot :=
  Or.imp_right (within slot)

/-- The session changes only its journal and these entries, and ends in this way. -/
def Concludes {ε α : Type} (host : Host) (weather : Weather) (journal : Slot) (own : Slot → Prop)
    (program : ExceptT ε (StateT Writer (Task FsOp)) α) (start : World)
    (post : Except ε α → World → Prop) : Prop :=
  ∀ writer, Alone journal writer.file start →
    (program.run.run writer).Meets (fsMachine host weather) (fun _ _ => True)
      (fun result finish => Elsewhere (Besides journal own) start finish ∧ post result.1 finish)
      start

/-- The session does so, and its journal stays under its name. -/
def Carries {ε α : Type} (host : Host) (weather : Weather) (journal : Slot) (own : Slot → Prop)
    (program : ExceptT ε (StateT Writer (Task FsOp)) α) (start : World)
    (post : Except ε α → World → Prop) : Prop :=
  ∀ writer, Alone journal writer.file start →
    (program.run.run writer).Meets (fsMachine host weather) (fun _ _ => True)
      (fun result finish => Alone journal result.2.file finish ∧
        Elsewhere (Besides journal own) start finish ∧ post result.1 finish) start

variable {journal : Slot} {own wider : Slot → Prop} {α β ε ε' : Type} {start : World}

theorem Carries.mono {program : ExceptT ε (StateT Writer (Task FsOp)) α}
    {post post' : Except ε α → World → Prop}
    (carries : Carries host weather journal own program start post)
    (weaken : ∀ result finish, Elsewhere (Besides journal own) start finish →
      post result finish → post' result finish) :
    Carries host weather journal own program start post' :=
  fun writer alone => (carries writer alone).mono fun result finish ended =>
    ⟨ended.1, ended.2.1, weaken result.1 finish ended.2.1 ended.2.2⟩

/-- A step of a session that may change more remembers how little it changed. -/
theorem Carries.within {program : ExceptT ε (StateT Writer (Task FsOp)) α}
    {post : Except ε α → World → Prop}
    (carries : Carries host weather journal own program start post)
    (within : ∀ slot, own slot → wider slot) :
    Carries host weather journal wider program start fun result finish =>
      Elsewhere (Besides journal own) start finish ∧ post result finish :=
  fun writer alone => (carries writer alone).mono fun _ _ ended =>
    ⟨ended.1, ended.2.1.mono (besides_mono within), ended.2⟩

theorem carries_pure {post : Except ε α → World → Prop} (value : α)
    (holds : post (.ok value) start) :
    Carries host weather journal own (pure value : ExceptT ε (StateT Writer (Task FsOp)) α) start
      post :=
  fun _ alone => ⟨alone, Elsewhere.refl _ _, holds⟩

theorem carries_throw {post : Except ε α → World → Prop} (error : ε)
    (holds : post (.error error) start) :
    Carries host weather journal own (throw error : ExceptT ε (StateT Writer (Task FsOp)) α) start
      post :=
  fun _ alone => ⟨alone, Elsewhere.refl _ _, holds⟩

theorem Carries.bind {program : ExceptT ε (StateT Writer (Task FsOp)) α}
    {next : α → ExceptT ε (StateT Writer (Task FsOp)) β}
    {middle : Except ε α → World → Prop} {post : Except ε β → World → Prop}
    (first : Carries host weather journal own program start middle)
    (value : ∀ value here, Elsewhere (Besides journal own) start here → middle (.ok value) here →
      Carries host weather journal own (next value) here post)
    (error : ∀ error here, Elsewhere (Besides journal own) start here →
      middle (.error error) here → post (.error error) here) :
    Carries host weather journal own (program >>= next) start post := by
  intro writer alone
  rw [Task.meets_session_bind]
  refine (first writer alone).mono fun result here ended => ?_
  obtain ⟨result, writer⟩ := result
  obtain ⟨still, elsewhere, holds⟩ := ended
  cases result with
  | ok found =>
      exact (value found here elsewhere holds writer still).mono fun _ _ last =>
        ⟨last.1, elsewhere.trans last.2.1, last.2.2⟩
  | error failure => exact ⟨still, elsewhere, error failure here elsewhere holds⟩

/-- What comes last may drop the journal. -/
theorem Carries.conclude {program : ExceptT ε (StateT Writer (Task FsOp)) α}
    {next : α → ExceptT ε (StateT Writer (Task FsOp)) β}
    {middle : Except ε α → World → Prop} {post : Except ε β → World → Prop}
    (first : Carries host weather journal own program start middle)
    (value : ∀ value here, Elsewhere (Besides journal own) start here → middle (.ok value) here →
      Concludes host weather journal own (next value) here post)
    (error : ∀ error here, Elsewhere (Besides journal own) start here →
      middle (.error error) here → post (.error error) here) :
    Concludes host weather journal own (program >>= next) start post := by
  intro writer alone
  rw [Task.meets_session_bind]
  refine (first writer alone).mono fun result here ended => ?_
  obtain ⟨result, writer⟩ := result
  obtain ⟨still, elsewhere, holds⟩ := ended
  cases result with
  | ok found =>
      exact (value found here elsewhere holds writer still).mono fun _ _ last =>
        ⟨elsewhere.trans last.1, last.2⟩
  | error failure => exact ⟨elsewhere, error failure here elsewhere holds⟩

theorem Concludes.within {program : ExceptT ε (StateT Writer (Task FsOp)) α}
    {post : Except ε α → World → Prop}
    (concludes : Concludes host weather journal own program start post)
    (within : ∀ slot, own slot → wider slot) :
    Concludes host weather journal wider program start fun result finish =>
      Elsewhere (Besides journal own) start finish ∧ post result finish :=
  fun writer alone => (concludes writer alone).mono fun _ _ ended =>
    ⟨ended.1.mono (besides_mono within), ended⟩

theorem Concludes.mono {program : ExceptT ε (StateT Writer (Task FsOp)) α}
    {post post' : Except ε α → World → Prop}
    (concludes : Concludes host weather journal own program start post)
    (weaken : ∀ result finish, Elsewhere (Besides journal own) start finish →
      post result finish → post' result finish) :
    Concludes host weather journal own program start post' :=
  fun writer alone => (concludes writer alone).mono fun result finish ended =>
    ⟨ended.1, weaken result.1 finish ended.1 ended.2⟩

/-- With a value this holds of the world, and with an error that. -/
def Outcome {ε α : Type} (good : α → World → Prop) (bad : ε → World → Prop) :
    Except ε α → World → Prop
  | .ok value, finish => good value finish
  | .error error, finish => bad error finish

/-- What a session does that ends well, and the kind of its errors. -/
theorem Concludes.signals {program : ExceptT ε (StateT Writer (Task FsOp)) α}
    {good : α → World → Prop} {kind : ε → Prop}
    (concludes : Concludes host weather journal own program start fun result finish =>
      ∀ value, result = .ok value → good value finish)
    (signals : Task.Signals program kind) :
    Concludes host weather journal own program start (Outcome good fun error _ => kind error) := by
  intro writer alone
  refine ((concludes writer alone).and ((signals writer).meets start)).mono
    fun result finish ended => ?_
  obtain ⟨⟨elsewhere, good⟩, kind⟩ := ended
  obtain ⟨result, after⟩ := result
  cases result with
  | ok value => exact ⟨elsewhere, good value rfl⟩
  | error error => exact ⟨elsewhere, kind error rfl⟩

/-- Nothing is changed any more. -/
theorem Concludes.bind {program : ExceptT ε (StateT Writer (Task FsOp)) α}
    {next : α → Except ε β} {post : Except ε β → World → Prop}
    (concludes : Concludes host weather journal own program start fun result finish =>
      post (result.bind next) finish) :
    Concludes host weather journal own (program >>= fun value => ExceptT.mk (pure (next value)))
      start post := by
  intro writer alone
  rw [Task.meets_session_bind]
  refine (concludes writer alone).mono fun ended finish holds => ?_
  obtain ⟨ended, after⟩ := ended
  cases ended with
  | ok found => exact holds
  | error failure => exact holds

/-- What follows a session that fails is never reached. -/
theorem Concludes.stop {program : ExceptT ε (StateT Writer (Task FsOp)) α}
    {next : α → ExceptT ε (StateT Writer (Task FsOp)) β} {post : Except ε β → World → Prop}
    (concludes : Concludes host weather journal own program start fun result finish =>
      ∃ error, result = .error error ∧ post (.error error) finish) :
    Concludes host weather journal own (program >>= next) start post := by
  intro writer alone
  rw [Task.meets_session_bind]
  refine (concludes writer alone).mono fun ended finish holds => ?_
  obtain ⟨ended, after⟩ := ended
  obtain ⟨elsewhere, error, same, holds⟩ := holds
  cases same
  exact ⟨elsewhere, holds⟩

theorem Carries.concludes {program : ExceptT ε (StateT Writer (Task FsOp)) α}
    {post : Except ε α → World → Prop}
    (carries : Carries host weather journal own program start post) :
    Concludes host weather journal own program start post :=
  fun writer alone => (carries writer alone).mono fun _ _ ended => ended.2

/-- The last action may drop the journal. -/
theorem concludes_lift {program : ExceptT ε (Task FsOp) α} {good : α → World → Prop}
    (achieves : ∀ file, Alone journal file start →
      Achieves host weather (· = journal) program start good) :
    Concludes host weather journal own (ExceptT.mk (StateT.lift program.run)) start
      fun result finish => ∀ value, result = .ok value → good value finish := by
  intro writer alone
  rw [Task.meets_session_lift]
  exact Task.Meets.mono (achieves writer.file alone) fun _ _ ended =>
    ⟨ended.1.mono fun _ => .inl, ended.2⟩

theorem Carries.adapt {change : ε → ε'} {program : ExceptT ε (StateT Writer (Task FsOp)) α}
    {post : Except ε' α → World → Prop}
    (carries : Carries host weather journal own program start fun result =>
      post (result.mapError change)) :
    Carries host weather journal own (ExceptT.adapt change program) start post := by
  intro writer alone
  rw [ExceptT.run_adapt, StateT.run_map, Task.meets_map]
  exact (carries writer alone).mono fun _ _ ended => ended

/-- The result of a session that is looked at, not passed on. -/
theorem carries_attempt {program : ExceptT ε (StateT Writer (Task FsOp)) α}
    {post : Except ε' (Except ε α) → World → Prop}
    (carries : Carries host weather journal own program start fun result => post (.ok result)) :
    Carries host weather journal own (ExceptT.lift program.run :
      ExceptT ε' (StateT Writer (Task FsOp)) (Except ε α)) start post := by
  intro writer alone
  rw [ExceptT.run_lift, StateT.run_map, Task.meets_map]
  exact carries writer alone

/-- An action that changes other entries only. -/
theorem carries_lift {program : ExceptT ε (Task FsOp) α} {good : α → World → Prop}
    (achieves : Achieves host weather own program start good) (outside : ¬ own journal) :
    Carries host weather journal own (ExceptT.mk (StateT.lift program.run)) start
      fun result finish => ∀ value, result = .ok value → good value finish := by
  intro writer alone
  rw [Task.meets_session_lift]
  refine Task.Meets.mono achieves fun result finish ended => ?_
  exact ⟨alone.elsewhere ended.1 outside, ended.1.mono fun _ => .inr, ended.2⟩

/-- An append changes nothing but its journal. -/
theorem carries_append {post : Except WorktreeError Unit → World → Prop} (record : Record)
    (wrap : JournalError → WorktreeError)
    (value : ∀ finish, Elsewhere (· = journal) start finish → post (.ok ()) finish)
    (error : ∀ finish failure, Elsewhere (· = journal) start finish →
      post (.error (wrap failure)) finish) :
    Carries host weather journal own (appendOr crates record wrap) start post := by
  have appended : Carries host weather journal (fun _ => False) (Writer.append crates record) start
      fun _ _ => True := by
    intro writer alone
    have keeps : ((Writer.append crates record).run.run writer).Meets (fsMachine host weather)
        (fun _ _ => True) (fun result finish => result.2.file = writer.file ∧
          Elsewhere (· = journal) start finish ∧ Alone journal writer.file finish) start := by
      refine append_keeps_file (fun holds scribbles stepped => ?_) record
        ⟨Elsewhere.refl _ _, alone⟩
      obtain ⟨elsewhere, alone⟩ := elsewhere_scribbles scribbles holds.2 stepped
      exact ⟨holds.1.trans elsewhere, alone⟩
    refine keeps.mono fun result finish ended => ?_
    obtain ⟨file, elsewhere, still⟩ := ended
    exact ⟨file ▸ still, elsewhere.mono fun _ => .inl, trivial⟩
  have only : ∀ {finish}, Elsewhere (Besides journal fun _ => False) start finish →
      Elsewhere (· = journal) start finish :=
    fun elsewhere => elsewhere.mono fun _ inside => inside.resolve_right id
  unfold appendOr
  apply Carries.adapt
  apply Carries.bind (appended.within fun _ => False.elim)
  · intro seq here _ ended
    exact carries_pure _ (value here (only ended.1))
  · intro failure here _ ended
    exact error here failure (only ended.1)

end

end Worktree
