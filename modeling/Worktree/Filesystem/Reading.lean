import Worktree.Filesystem.Control
/-
What the readers answer.

A reader knows what some directory entries show and must not change anything.
Its value is a fact about what they show; its error says that a call failed or
that something was not as required, and `NotFound` that an entry is not there.
-/

namespace Worktree

open CrashLogic

/-- A value is good, an error needs a failing call unless things are not clear,
and it says `NotFound` only of what is missing. -/
def Answers {α : Type} (weather : Weather) (good : α → Prop) (clear missing : Prop) :
    Except IoError α → Prop
  | .ok value => good value
  | .error error => (clear → weather.fails) ∧ (error.kind = .notFound → missing)

section

variable {α β τ : Type} {host : Host} {weather : Weather} {known : World → Prop}
  {good good' : α → Prop} {clear clear' missing missing' : Prop}

@[simp] theorem answers_ok (value : α) :
    Answers weather good clear missing (.ok value) ↔ good value := Iff.rfl

theorem answers_fault {error : IoError} (fails : weather.fails)
    (absent : error.kind = .notFound → missing) :
    Answers weather good clear missing (.error error) :=
  ⟨fun _ => fails, absent⟩

theorem answers_failed {error : IoError} (fails : weather.fails)
    (kind : error.kind ≠ .notFound) : Answers weather good clear missing (.error error) :=
  answers_fault fails fun found => absurd found kind

theorem answers_refused {error : IoError} (unclear : ¬ clear) (kind : error.kind ≠ .notFound) :
    Answers weather good clear missing (.error error) :=
  ⟨fun holds => absurd holds unclear, fun found => absurd found kind⟩

theorem answers_error_of {good' : β → Prop} {error : IoError}
    (answers : Answers weather good' clear' missing' (.error error : Except IoError β))
    (clearer : clear → clear') (gone : missing' → missing) :
    Answers weather good clear missing (.error error : Except IoError α) :=
  ⟨fun holds => answers.1 (clearer holds), fun found => gone (answers.2 found)⟩

theorem Answers.mono {result : Except IoError α}
    (answers : Answers weather good clear missing result)
    (better : ∀ value, good value → good' value) (clearer : clear' → clear)
    (gone : missing → missing') : Answers weather good' clear' missing' result := by
  cases result with
  | ok value => exact better value answers
  | error error => exact answers_error_of answers clearer gone

/-! ### Quiet calls -/

theorem quiet_io {call : FsCall τ} (same : ∀ world, (call.exec host world).2 = world)
    (whole : ∀ world left, ¬ call.torn world left) :
    (fsMachine host weather).Quiet (.io call) := by
  refine fun start => ⟨whole start, fun answer finish stepped => ?_⟩
  rcases stepped with executed | ⟨_, _, _, rfl | ⟨rfl, _⟩ | torn, _⟩
  · have moved := same start
    rw [executed] at moved
    exact moved
  · rfl
  · exact same start
  · exact absurd torn (whole start finish)

theorem quiet_cloneHandle (handle : Ino) :
    (fsMachine host weather).Quiet (.io (.cloneHandle handle)) :=
  quiet_io (fun _ => rfl) (fun _ _ => id)

theorem quiet_dirMetadata (dir : Ino) :
    (fsMachine host weather).Quiet (.io (.dirMetadata dir)) :=
  quiet_io (fun _ => rfl) (fun _ _ => id)

theorem quiet_symlinkMetadata (dir : Ino) (name : String) :
    (fsMachine host weather).Quiet (.io (.symlinkMetadata dir name)) := by
  refine quiet_io (fun world => ?_) (fun _ _ => id)
  simp only [FsCall.exec]
  split <;> rfl

theorem quiet_openDir (dir : Ino) (name : String) :
    (fsMachine host weather).Quiet (.io (.openDir dir name)) := by
  refine quiet_io (fun world => ?_) (fun _ _ => id)
  simp only [FsCall.exec]
  repeat' split
  all_goals rfl

theorem quiet_openRead (dir : Ino) (name : String) :
    (fsMachine host weather).Quiet (.io (.openFile dir name .read)) := by
  refine quiet_io (fun world => ?_) (fun _ _ => id)
  simp only [FsCall.exec, FsCall.execOpen]
  repeat' split
  all_goals rfl

theorem quiet_openReadWrite (dir : Ino) (name : String) :
    (fsMachine host weather).Quiet (.io (.openFile dir name .readWrite)) := by
  refine quiet_io (fun world => ?_) (fun _ _ => id)
  simp only [FsCall.exec, FsCall.execOpen]
  repeat' split
  all_goals rfl

theorem quiet_metadata (file : Ino) : (fsMachine host weather).Quiet (.io (.metadata file)) :=
  quiet_io (fun _ => rfl) (fun _ _ => id)

theorem quiet_read (file : Ino) (limit : Nat) :
    (fsMachine host weather).Quiet (.io (.read file limit)) := by
  refine quiet_io (fun world => ?_) (fun _ _ => id)
  simp only [FsCall.exec]
  split <;> rfl

theorem quiet_syncFile (file : Ino) : (fsMachine host weather).Quiet (.io (.syncFile file)) :=
  quiet_io (fun _ => rfl) (fun _ _ => id)

theorem quiet_syncDir (dir : Ino) : (fsMachine host weather).Quiet (.io (.syncDir dir)) :=
  quiet_io (fun _ => rfl) (fun _ _ => id)

theorem quiet_entries (dir : Ino) : (fsMachine host weather).Quiet (.io (.entries dir)) :=
  quiet_io (fun _ => rfl) (fun _ _ => id)

/-! ### Making a quiet call -/

/-- A quiet call that is no removal: what it answers, and what a failure says. -/
theorem learns_perform {call : FsCall τ} {post : Except IoError τ → Prop}
    (quiet : (fsMachine host weather).Quiet (.io call)) (keeps : ¬ call.isRemoval)
    (answer : ∀ world, known world → post (call.exec host world).1)
    (fault : weather.fails → ∀ world, known world → ∀ error,
      (error.kind = .notFound → ¬ call.present host world) → post (.error error)) :
    (perform call).run.Learns (fsMachine host weather) known post := by
  refine ⟨quiet, fun start result finish knows stepped => ?_⟩
  have unmoved := (quiet start).2 result finish stepped
  subst unmoved
  rcases stepped with executed | ⟨fails, error, rfl, _, absent⟩
  · have answered := answer finish knows
    rw [executed] at answered
    exact answered
  · apply fault fails finish knows error
    intro kind
    rcases absent kind with missing | ⟨_, removal⟩
    · exact missing
    · exact absurd removal keeps

theorem learns_pure {post : Except IoError α → Prop} (value : α) (holds : post (.ok value)) :
    (pure value : Io α).run.Learns (fsMachine host weather) known post := holds

theorem learns_throw {post : Except IoError α → Prop} (error : IoError)
    (holds : post (.error error)) :
    (throw error : Io α).run.Learns (fsMachine host weather) known post := holds

theorem learns_throw_bind {post : Except IoError α → Prop} {next : β → Io α} (error : IoError)
    (holds : post (.error error)) :
    ((throw error : Io β) >>= next).run.Learns (fsMachine host weather) known post := holds

theorem learns_liftExcept {post : Except IoError α → Prop} {next : β → Io α}
    (result : Except IoError β)
    (value : ∀ value, result = .ok value →
      (next value).run.Learns (fsMachine host weather) known post)
    (error : ∀ error, result = .error error → post (.error error)) :
    (liftExcept result >>= next).run.Learns (fsMachine host weather) known post := by
  cases result with
  | ok found => exact value found rfl
  | error found => exact error found rfl

theorem learns_attempt {post : Except IoError β → Prop} {program : Io α}
    {next : Except IoError α → Io β}
    (learns : program.run.Learns (fsMachine host weather) known fun result =>
      (next result).run.Learns (fsMachine host weather) known post) :
    (attempt program >>= next).run.Learns (fsMachine host weather) known post := by
  rw [Task.learns_except_bind, attempt, Task.learns_except_lift]
  exact learns

/-- One reader after another. -/
theorem learns_then {program : Io α} {next : α → Io β} {post : Except IoError β → Prop}
    (first : program.run.Learns (fsMachine host weather) known
      (Answers weather good clear missing))
    (second : ∀ value, good value → (next value).run.Learns (fsMachine host weather) known post)
    (error : ∀ error, Answers weather good clear missing (.error error) → post (.error error)) :
    (program >>= next).run.Learns (fsMachine host weather) known post := by
  rw [Task.learns_except_bind]
  refine first.mono fun result answered => ?_
  cases result with
  | ok value => exact second value answered
  | error found => exact error found answered

/-- A quiet call and what follows its answer. -/
theorem learns_call {call : FsCall τ} {next : τ → Io α} {post : Except IoError α → Prop}
    (quiet : (fsMachine host weather).Quiet (.io call)) (keeps : ¬ call.isRemoval)
    (answer : ∀ world, known world → match (call.exec host world).1 with
      | .ok value => (next value).run.Learns (fsMachine host weather) known post
      | .error error => post (.error error))
    (fault : weather.fails → ∀ world, known world → ∀ error,
      (error.kind = .notFound → ¬ call.present host world) → post (.error error)) :
    (perform call >>= next).run.Learns (fsMachine host weather) known post := by
  rw [Task.learns_except_bind]
  refine learns_perform quiet keeps (fun world knows => ?_) fault
  have answered := answer world knows
  cases executed : (call.exec host world).1 with
  | ok value => simpa only [executed] using answered
  | error error => simpa only [executed] using answered

end

/-! ### Views -/

/-- A regular file on the device. -/
def Seen.File (device : Nat) (seen : Seen) : Prop :=
  seen.inode.kind = .file ∧ seen.inode.device = device

/-- A regular writable file of the device with a single link. -/
structure Seen.Plain (device : Nat) (seen : Seen) : Prop where
  file : seen.File device
  links : seen.links = 1
  writable : Mode.readonly seen.inode.mode = false

def Seen.identity (seen : Seen) : FileIdentity :=
  ⟨seen.inode.device, seen.ino⟩

def Seen.evidence (sha256 : Bytes → Sha256Hash) (seen : Seen) : PresentEvidence :=
  { sha256 := sha256 seen.inode.bytes
    bytes := seen.inode.bytes.length
    identity := seen.identity
    permissions := .fromPermissions seen.inode.mode }

/-- The evidence of a slot that shows this. -/
def Shows (sha256 : Bytes → Sha256Hash) (device : Nat) (view : Option Seen) :
    SlotEvidence → Prop
  | .absent => view = none
  | .present evidence => ∃ seen, view = some seen ∧ seen.Plain device ∧
      evidence = seen.evidence sha256

/-- A file of at most this length can be read whole. -/
structure Fits (maxBytes : Nat) (seen : Seen) : Prop where
  length : seen.inode.bytes.length ≤ maxBytes
  limit : maxBytes + 1 ≤ u64Max

/-- Whether a calm reader finds evidence. -/
def Readable (device maxBytes : Nat) : Option Seen → Prop
  | none => True
  | some seen => seen.Plain device ∧ Fits maxBytes seen

/-- The two names of one file, and there is no third. -/
def Linked (device : Nat) (first second : Option Seen) : Prop :=
  ∃ seen, first = some seen ∧ second = some seen ∧ seen.File device ∧ seen.links = 2

theorem isLinkOrReparse_metadata (seen : Seen) :
    isLinkOrReparse seen.metadata = true ↔ seen.inode.kind = .symlink :=
  decide_eq_true_iff

theorem validateMetadata_ok (seen : Seen) (device : Nat) :
    validateMetadata seen.metadata device = .ok () ↔ seen.Plain device := by
  unfold validateMetadata
  constructor
  · intro valid
    by_cases kind : seen.inode.kind = .file
    · by_cases onDevice : seen.inode.device = device
      · by_cases single : seen.links = 1
        · by_cases readonly : Mode.readonly seen.inode.mode = true
          · simp [Seen.metadata, kind, onDevice, single, readonly] at valid
          · exact ⟨⟨kind, onDevice⟩, single, by simpa using readonly⟩
        · simp [Seen.metadata, kind, onDevice, single] at valid
          cases valid
      · simp [Seen.metadata, kind, onDevice] at valid
        cases valid
    · simp [Seen.metadata, kind] at valid
      cases valid
  · rintro ⟨⟨kind, onDevice⟩, single, writable⟩
    simp [Seen.metadata, kind, onDevice, single, writable]
    rfl

theorem validateMetadata_error {metadata : Metadata} {device : Nat} {error : IoError}
    (failed : validateMetadata metadata device = .error error) : error.kind ≠ .notFound := by
  unfold validateMetadata at failed
  simp only [throw, throwThe, MonadExceptOf.throw, bind, Except.bind, pure, Except.pure] at failed
  repeat' split at failed
  all_goals cases failed
  all_goals simp [invalid]

end Worktree
