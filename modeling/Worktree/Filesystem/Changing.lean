import Worktree.Filesystem.Effects
/-
What the changing operations on a slot and its artifacts do, in every weather.

Each rule lists the states a run passes through: it may end with an error in any
of them when calls fail, and otherwise only in the first, when something was not
as the operation requires.
-/

namespace Worktree

open CrashLogic

section

variable {α β τ : Type} {host : Host} {weather : Weather} {world : World}
  {guard : {ρ : Type} → FsOp ρ → World → Prop} {good : α → Prop} {clear missing : Prop}

/-- A reader and what follows it. -/
theorem meets_reader {program : Io α} {next : α → Io β} {post : Except IoError β → World → Prop}
    (learns : program.run.Learns (fsMachine host weather) (fun here => here = world)
      (Answers weather good clear missing))
    (admits : (fsMachine host weather).Admits guard world)
    (value : ∀ value, good value →
      (next value).run.Meets (fsMachine host weather) guard post world)
    (error : ∀ error, (clear → weather.fails) → post (.error error) world) :
    (program >>= next).run.Meets (fsMachine host weather) guard post world := by
  rw [Task.meets_except_bind]
  refine (learns.meets admits).mono fun result finish ended => ?_
  obtain ⟨rfl, answered⟩ := ended
  cases result with
  | ok found => exact value found answered
  | error failure => exact error failure answered.1

/-- A reader at the end. -/
theorem meets_last {program : Io α} {post : Except IoError α → World → Prop}
    (learns : program.run.Learns (fsMachine host weather) (fun here => here = world)
      (Answers weather good clear missing))
    (admits : (fsMachine host weather).Admits guard world)
    (value : ∀ value, good value → post (.ok value) world)
    (error : ∀ error, (clear → weather.fails) → post (.error error) world) :
    program.run.Meets (fsMachine host weather) guard post world := by
  refine (learns.meets admits).mono fun result finish ended => ?_
  obtain ⟨rfl, answered⟩ := ended
  cases result with
  | ok found => exact value found answered
  | error failure => exact error failure answered.1

/-- A call that cannot be torn fails without its effect or with it. -/
theorem meets_call {call : FsCall τ} {next : τ → Io α} {post : Except IoError α → World → Prop}
    (whole : ∀ left, ¬ call.torn world left) (guarded : guard (.io call) world)
    (answer : match call.exec host world with
      | (.ok value, finish) => (next value).run.Meets (fsMachine host weather) guard post finish
      | (.error error, finish) => post (.error error) finish)
    (fault : weather.fails → ∀ error, post (.error error) world ∧
      post (.error error) (call.exec host world).2) :
    (perform call >>= next).run.Meets (fsMachine host weather) guard post world := by
  rw [Task.meets_except_bind]
  refine ⟨guarded, fun result finish stepped => ?_⟩
  rcases stepped with executed | ⟨fails, error, rfl, rfl | ⟨rfl, _⟩ | torn, _⟩
  · rw [executed] at answer
    cases result with
    | ok value => exact answer
    | error error => exact answer
  · exact (fault fails error).1
  · exact (fault fails error).2
  · exact absurd torn (whole finish)

theorem liftExcept_ok_bind (value : α) (next : α → Io β) :
    (liftExcept (.ok value) >>= next) = next value := rfl

/-- A call that cannot be torn, at the end. -/
theorem meets_call_last {call : FsCall τ} {post : Except IoError τ → World → Prop}
    (whole : ∀ left, ¬ call.torn world left) (guarded : guard (.io call) world)
    (answer : post (call.exec host world).1 (call.exec host world).2)
    (fault : weather.fails → ∀ error, post (.error error) world ∧
      post (.error error) (call.exec host world).2) :
    (perform call).run.Meets (fsMachine host weather) guard post world := by
  rw [← bind_pure (perform call)]
  refine meets_call whole guarded ?_ fault
  cases executed : (call.exec host world) with
  | mk result finish =>
      rw [executed] at answer
      cases result with
      | ok value => exact answer
      | error error => exact answer

theorem meets_attempt_symlinkMetadata {dir : Ino} {name : String}
    {next : Except IoError Metadata → Io α} {post : Except IoError α → World → Prop}
    (admits : (fsMachine host weather).Admits guard world)
    (found : ∀ seen, world.look (host.slot dir name) = some seen →
      (next (.ok seen.metadata)).run.Meets (fsMachine host weather) guard post world)
    (missing : ∀ error : IoError, world.look (host.slot dir name) = none →
      error.kind = .notFound →
      (next (.error error)).run.Meets (fsMachine host weather) guard post world)
    (fault : weather.fails → ∀ error : IoError, error.kind ≠ .notFound →
      (next (.error error)).run.Meets (fsMachine host weather) guard post world) :
    (attempt (perform (.symlinkMetadata dir name)) >>= next).run.Meets (fsMachine host weather)
      guard post world := by
  rw [Task.meets_except_bind, attempt, Task.meets_except_lift]
  have learns : (perform (.symlinkMetadata dir name)).run.Learns (fsMachine host weather)
      (fun here => here = world) fun result =>
        (next result).run.Meets (fsMachine host weather) guard post world := by
    refine learns_perform (quiet_symlinkMetadata dir name) id (fun here same => ?_)
      fun fails here same error absent => ?_
    · subst same
      simp only [FsCall.exec]
      cases shown : here.look (host.slot dir name) with
      | none => exact missing .missing shown rfl
      | some seen => exact found seen shown
    · subst same
      by_cases kind : error.kind = .notFound
      · have gone := absent kind
        exact missing error (by simpa [FsCall.present] using gone) kind
      · exact fault fails error kind
  refine (learns.meets admits).mono fun result finish ended => ?_
  obtain ⟨rfl, continues⟩ := ended
  exact continues

theorem meets_liftExcept {result : Except IoError α} {next : α → Io β}
    {post : Except IoError β → World → Prop}
    (value : ∀ value, result = .ok value →
      (next value).run.Meets (fsMachine host weather) guard post world)
    (error : ∀ error, result = .error error → post (.error error) world) :
    (liftExcept result >>= next).run.Meets (fsMachine host weather) guard post world := by
  cases result with
  | ok found => exact value found rfl
  | error found => exact error found rfl

end

namespace TargetAccess

section

variable {host : Host} {weather : Weather} {world : World} {access : TargetAccess} {name : String}
  {guard : {ρ : Type} → FsOp ρ → World → Prop}

/-- The directory of the target is on the device of the worktree. -/
def Housed (world : World) (access : TargetAccess) : Prop :=
  (world.inodes access.parent).device = access.rootDevice

/-- An absent target beside a single-link artifact. -/
structure Installs (host : Host) (access : TargetAccess) (name : String) (world : World)
    (seen : Seen) : Prop where
  absent : world.look (access.slot host) = none
  shows : world.look (access.artifact host name) = some seen
  file : seen.File access.rootDevice
  single : seen.links = 1

/-- Target and artifact are the two names of one file. -/
structure Twins (host : Host) (access : TargetAccess) (name : String) (world : World)
    (seen : Seen) : Prop where
  target : world.look (access.slot host) = some seen
  artifact : world.look (access.artifact host name) = some seen
  file : seen.File access.rootDevice
  double : seen.links = 2

theorem Twins.linked {seen : Seen} (twins : Twins host access name world seen) :
    Linked access.rootDevice (world.look (access.slot host))
      (world.look (access.artifact host name)) :=
  ⟨seen, twins.target, twins.artifact, twins.file, twins.double⟩

theorem Twins.apart {seen : Seen} (twins : Twins host access name world seen)
    (different : access.artifact host name ≠ access.slot host) :
    (world.unlink (access.artifact host name)).look (access.slot host) =
        some { seen with links := 1 } ∧
      (world.unlink (access.slot host)).look (access.artifact host name) =
        some { seen with links := 1 } :=
  ⟨World.look_unlink_partner (Ne.symm different) twins.artifact twins.target twins.double,
    World.look_unlink_partner different twins.target twins.artifact twins.double⟩

theorem Installs.twins {seen : Seen} (installs : Installs host access name world seen) :
    Twins host access name (world.link (access.slot host) seen.ino)
      { seen with links := 2 } :=
  { target := World.look_link_self installs.absent installs.shows installs.single
    artifact := World.look_link_source installs.absent installs.shows installs.single
    file := installs.file
    double := rfl }

theorem Installs.exec_hardLink {seen : Seen} (installs : Installs host access name world seen)
    (housed : access.Housed world) :
    (FsCall.hardLink access.parent name access.parent access.name).exec host world =
      (.ok (), world.link (access.slot host) seen.ino) := by
  have shows : world.look (host.slot access.parent name) = some seen := installs.shows
  have absent : world.look (host.slot access.parent access.name) = none := installs.absent
  have regular : seen.inode.kind ≠ .directory := by
    rw [installs.file.1]
    simp
  have near : ¬ seen.inode.device ≠ (world.inodes access.parent).device := by
    rw [installs.file.2, housed]
    simp
  simp only [FsCall.exec, FsCall.execHardLink, shows, absent, if_neg regular]
  exact if_neg near

theorem here_look (slot : Slot) :
    ∀ here : World, here = world → here.look slot = world.look slot :=
  fun _ same => congrArg (fun world => world.look slot) same

theorem consistent_look (world : World) (access : TargetAccess) (name : String) :
    ∀ target staged, world.look (access.slot host) = some target →
      world.look (access.artifact host name) = some staged →
      target.ino = staged.ino → target = staged :=
  fun _ _ => look_same

theorem same_learns (world : World) (access : TargetAccess) (name : String) :
    (access.sameFileAsArtifact name).run.Learns (fsMachine host weather)
      (fun here => here = world)
      (Answers weather (fun same => same = true ↔ ∃ seen, Twins host access name world seen)
        (validateArtifactName name = .ok () ∧ ∃ target staged,
          world.look (access.slot host) = some target ∧
          world.look (access.artifact host name) = some staged ∧
          target.File access.rootDevice ∧ staged.File access.rootDevice)
        (world.look (access.slot host) = none ∨
          world.look (access.artifact host name) = none)) := by
  refine (sameFileAsArtifact_learns (here_look _) (here_look _)
    (consistent_look world access name)).mono fun result answered =>
      answered.mono (fun same good => ?_) id id
  obtain ⟨_, _, _, _, _, _, truth⟩ := good
  rw [truth]
  constructor
  · rintro ⟨seen, shows, stages, file, double⟩
    exact ⟨seen, shows, stages, file, double⟩
  · rintro ⟨seen, twins⟩
    exact twins.linked

/-! ### Installing -/

theorem linkAbsentFrom_meets {post : Except IoError FileIdentity → World → Prop}
    (valid : validateArtifactName name = .ok ()) (housed : access.Housed world)
    (admits : (fsMachine host weather).Admits guard world)
    (stuck : ∀ error, ((∃ seen, Installs host access name world seen) → weather.fails) →
      post (.error error) world)
    (links : ∀ seen, Installs host access name world seen →
      guard (.io (.hardLink access.parent name access.parent access.name)) world ∧
        (fsMachine host weather).Admits guard (world.link (access.slot host) seen.ino) ∧
        post (.ok seen.identity) (world.link (access.slot host) seen.ino) ∧
        (weather.fails → ∀ error,
          post (.error error) (world.link (access.slot host) seen.ino))) :
    (access.linkAbsentFrom name).run.Meets (fsMachine host weather) guard post world := by
  unfold linkAbsentFrom
  rw [valid, liftExcept_ok_bind]
  refine meets_reader (requireAbsent_learns (here_look _)) admits
    (fun _ absent => ?_) fun error cause => stuck error fun clear =>
      cause (Exists.elim clear fun _ installs => installs.absent)
  refine meets_reader (safeArtifactIdentity_learns 1 (here_look _)) admits
    (fun identity good => ?_) fun error cause => stuck error fun ⟨seen, installs⟩ =>
      cause ⟨valid, seen, installs.shows, installs.file, installs.single⟩
  obtain ⟨seen, shows, file, single, rfl⟩ := good
  have installs : Installs host access name world seen := ⟨absent, shows, file, single⟩
  obtain ⟨guarded, admitted, ended, failed⟩ := links seen installs
  have executed := installs.exec_hardLink housed
  refine meets_call (fun _ => id) guarded ?_ fun fails error =>
    ⟨stuck error fun _ => fails, ?_⟩
  · rw [executed]
    refine meets_reader syncParent_learns admitted (fun _ _ => ?_)
      fun error cause => failed (cause trivial) error
    refine meets_reader (same_learns _ access name) admitted (fun same truth => ?_)
      fun error cause => failed (cause ⟨valid, _, _, installs.twins.target,
        installs.twins.artifact, installs.twins.file, installs.twins.file⟩) error
    have linked : same = true := truth.mpr ⟨_, installs.twins⟩
    subst linked
    simpa using ended
  · rw [executed]
    exact failed fails error

theorem exec_removeFile {world : World} {dir : Ino} {name : String} {seen : Seen}
    (shows : world.look (host.slot dir name) = some seen) (file : seen.inode.kind = .file) :
    (FsCall.removeFile dir name).exec host world =
      (.ok (), world.unlink (host.slot dir name)) := by
  have regular : seen.inode.kind ≠ .directory := by
    rw [file]
    simp
  simp only [FsCall.exec, shows, if_neg regular]

theorem finishLinkedInstall_meets {post : Except IoError Unit → World → Prop}
    {expected : FileIdentity} (valid : validateArtifactName name = .ok ())
    (different : access.artifact host name ≠ access.slot host)
    (admits : (fsMachine host weather).Admits guard world)
    (stuck : ∀ error, ((∃ seen, Twins host access name world seen) → weather.fails) →
      post (.error error) world)
    (unlinks : ∀ seen, Twins host access name world seen →
      guard (.io (.removeFile access.parent name)) world ∧
        (fsMachine host weather).Admits guard (world.unlink (access.artifact host name)) ∧
        (seen.identity = expected → Mode.readonly seen.inode.mode = false →
          post (.ok ()) (world.unlink (access.artifact host name))) ∧
        ∀ error, (seen.identity = expected ∧ Mode.readonly seen.inode.mode = false →
          weather.fails) → post (.error error) (world.unlink (access.artifact host name))) :
    (access.finishLinkedInstall name expected).run.Meets (fsMachine host weather) guard post
      world := by
  unfold finishLinkedInstall
  refine meets_reader (same_learns world access name) admits (fun same truth => ?_)
    fun error cause => stuck error fun ⟨_, twins⟩ =>
      cause ⟨valid, _, _, twins.target, twins.artifact, twins.file, twins.file⟩
  cases same with
  | false =>
      exact stuck _ fun clear => Bool.noConfusion (truth.mpr clear)
  | true =>
      obtain ⟨seen, twins⟩ := truth.mp rfl
      obtain ⟨guarded, admitted, ended, failed⟩ := unlinks seen twins
      have executed := exec_removeFile twins.artifact twins.file.1
      have alone := (twins.apart different).1
      refine meets_call (fun _ => id) guarded ?_ fun fails error =>
        ⟨stuck error fun _ => fails, ?_⟩
      · rw [executed]
        refine meets_reader syncParent_learns admitted (fun _ _ => ?_)
          fun error cause => failed error fun _ => cause trivial
        refine meets_reader (probe_learns (here_look _)) admitted (fun probe good => ?_)
          fun error cause => failed error fun clear => cause ⟨_, alone, ?_⟩
        · obtain ⟨found, shown, plain, rfl⟩ := good
          have same : { seen with links := 1 } = found := Option.some.inj (alone.symm.trans shown)
          subst same
          split
          · next foreign => exact failed _ fun clear => absurd clear.1 foreign
          · next identical => exact ended (not_not.mp identical) plain.writable
        · exact ⟨twins.file, rfl, clear.2⟩
      · rw [executed]
        exact failed error fun _ => fails

theorem installAbsentFrom_meets {post : Except IoError Unit → World → Prop}
    (valid : validateArtifactName name = .ok ()) (housed : access.Housed world)
    (different : access.artifact host name ≠ access.slot host)
    (admits : (fsMachine host weather).Admits guard world)
    (stuck : ∀ error, ((∃ seen, Installs host access name world seen) → weather.fails) →
      post (.error error) world)
    (links : ∀ seen, Installs host access name world seen →
      guard (.io (.hardLink access.parent name access.parent access.name)) world ∧
        (fsMachine host weather).Admits guard (world.link (access.slot host) seen.ino) ∧
        (weather.fails → ∀ error,
          post (.error error) (world.link (access.slot host) seen.ino)))
    (unlinks : ∀ seen, Installs host access name world seen →
      guard (.io (.removeFile access.parent name)) (world.link (access.slot host) seen.ino) ∧
        (fsMachine host weather).Admits guard
          ((world.link (access.slot host) seen.ino).unlink (access.artifact host name)) ∧
        (Mode.readonly seen.inode.mode = false → post (.ok ())
          ((world.link (access.slot host) seen.ino).unlink (access.artifact host name))) ∧
        ∀ error, (Mode.readonly seen.inode.mode = false → weather.fails) → post (.error error)
          ((world.link (access.slot host) seen.ino).unlink (access.artifact host name))) :
    (access.installAbsentFrom name).run.Meets (fsMachine host weather) guard post world := by
  unfold installAbsentFrom
  rw [Task.meets_except_bind]
  refine linkAbsentFrom_meets valid housed admits stuck fun seen installs => ?_
  obtain ⟨guarded, admitted, failed⟩ := links seen installs
  refine ⟨guarded, admitted, ?_, failed⟩
  have doubled := installs.twins
  obtain ⟨guarded, alone, ended, broken⟩ := unlinks seen installs
  refine finishLinkedInstall_meets valid different admitted
    (fun error cause => failed (cause ⟨_, doubled⟩) error) fun found twins => ?_
  have same : { seen with links := 2 } = found :=
    Option.some.inj (doubled.target.symm.trans twins.target)
  subst same
  exact ⟨guarded, alone, fun _ writable => ended writable,
    fun error cause => broken error fun writable => cause ⟨rfl, writable⟩⟩

theorem rollbackLinkedInstall_meets {post : Except IoError Unit → World → Prop}
    (valid : validateArtifactName name = .ok ())
    (different : access.artifact host name ≠ access.slot host)
    (admits : (fsMachine host weather).Admits guard world)
    (stuck : ∀ error, ((∃ seen, Twins host access name world seen) → weather.fails) →
      post (.error error) world)
    (unlinks : ∀ seen, Twins host access name world seen →
      guard (.io (.removeFile access.parent access.name)) world ∧
        (fsMachine host weather).Admits guard (world.unlink (access.slot host)) ∧
        post (.ok ()) (world.unlink (access.slot host)) ∧
        (weather.fails → ∀ error, post (.error error) (world.unlink (access.slot host)))) :
    (access.rollbackLinkedInstall name).run.Meets (fsMachine host weather) guard post world := by
  unfold rollbackLinkedInstall
  refine meets_reader (same_learns world access name) admits (fun same truth => ?_)
    fun error cause => stuck error fun ⟨_, twins⟩ =>
      cause ⟨valid, _, _, twins.target, twins.artifact, twins.file, twins.file⟩
  cases same with
  | false =>
      exact stuck _ fun clear => Bool.noConfusion (truth.mpr clear)
  | true =>
      obtain ⟨seen, twins⟩ := truth.mp rfl
      obtain ⟨guarded, admitted, ended, failed⟩ := unlinks seen twins
      have executed := exec_removeFile twins.target twins.file.1
      have alone := (twins.apart different).2
      refine meets_call (fun _ => id) guarded ?_ fun fails error =>
        ⟨stuck error fun _ => fails, ?_⟩
      · rw [executed]
        refine meets_reader syncParent_learns admitted (fun _ _ => ?_)
          fun error cause => failed (cause trivial) error
        refine meets_reader (requireAbsent_learns (here_look _)) admitted (fun _ _ => ?_)
          fun error cause => failed (cause World.look_unlink_self) error
        exact meets_reader (safeArtifactIdentity_learns 1 (here_look _)) admitted
          (fun _ _ => ended) fun error cause =>
            failed (cause ⟨valid, _, alone, twins.file, rfl⟩) error
      · rw [executed]
        exact failed fails error

/-! ### Replacing and removing -/

/-- A single-link artifact that may replace what the target shows. -/
structure Replaces (host : Host) (access : TargetAccess) (name : String) (world : World)
    (seen : Seen) : Prop where
  shows : world.look (access.artifact host name) = some seen
  file : seen.File access.rootDevice
  single : seen.links = 1

theorem exec_rename {seen : Seen} {toDir : Ino} {toName : String} {dir : Ino} {name : String}
    (shows : world.look (host.slot dir name) = some seen) (file : seen.inode.kind = .file)
    (near : seen.inode.device = (world.inodes toDir).device) (single : seen.links = 1)
    (different : host.slot toDir toName ≠ host.slot dir name)
    (covers : ∀ there, world.look (host.slot toDir toName) = some there →
      there.inode.kind ≠ .directory) :
    (FsCall.rename dir name toDir toName).exec host world =
      (.ok (), world.move (host.slot dir name) (host.slot toDir toName) seen.ino) := by
  have regular : seen.inode.kind ≠ .directory := by
    rw [file]
    simp
  have close : ¬ seen.inode.device ≠ (world.inodes (host.slot toDir toName).dir).device :=
    not_not.mpr near
  simp only [FsCall.exec, FsCall.execRename, shows, if_neg regular, if_neg close]
  cases target : world.look (host.slot toDir toName) with
  | none => rfl
  | some there =>
      have foreign : there.ino ≠ seen.ino :=
        fun same => different (World.only_name shows single target same)
      simp only [if_neg (covers there target), if_neg foreign]

theorem replaceFrom_meets {post : Except IoError Unit → World → Prop}
    (valid : validateArtifactName name = .ok ()) (housed : access.Housed world)
    (different : access.slot host ≠ access.artifact host name)
    (covers : ∀ there, world.look (access.slot host) = some there →
      there.inode.kind ≠ .directory)
    (admits : (fsMachine host weather).Admits guard world)
    (stuck : ∀ error, ((∃ seen, Replaces host access name world seen) → weather.fails) →
      post (.error error) world)
    (moves : ∀ seen, Replaces host access name world seen →
      guard (.io (.rename access.parent name access.parent access.name)) world ∧
        post (.ok ()) (world.move (access.artifact host name) (access.slot host) seen.ino) ∧
        (weather.fails → ∀ error, post (.error error)
          (world.move (access.artifact host name) (access.slot host) seen.ino))) :
    (access.replaceFrom name).run.Meets (fsMachine host weather) guard post world := by
  unfold replaceFrom renameFrom
  refine meets_reader (safeArtifactIdentity_learns 1 (here_look _)) admits
    (fun identity good => ?_) fun error cause => stuck error fun ⟨seen, replaces⟩ =>
      cause ⟨valid, seen, replaces.shows, replaces.file, replaces.single⟩
  obtain ⟨seen, shows, file, single, _⟩ := good
  obtain ⟨guarded, ended, failed⟩ := moves seen ⟨shows, file, single⟩
  have executed := exec_rename shows file.1 (file.2.trans housed.symm) single different covers
  rw [valid, liftExcept_ok_bind]
  refine meets_call_last (fun _ => id) guarded ?_ fun fails error =>
    ⟨stuck error fun _ => fails, ?_⟩
  · rw [executed]
    exact ended
  · rw [executed]
    exact failed fails error

theorem removeExact_meets {post : Except IoError Unit → World → Prop}
    {sha256 : Bytes → Sha256Hash} {expected : PresentEvidence} {maxBytes : Nat}
    (admits : (fsMachine host weather).Admits guard world)
    (stuck : ∀ error, ((∃ seen, world.look (access.slot host) = some seen ∧
        seen.Plain access.rootDevice ∧ Fits maxBytes seen ∧ seen.evidence sha256 = expected) →
      weather.fails) → post (.error error) world)
    (unlinks : ∀ seen, world.look (access.slot host) = some seen →
      seen.Plain access.rootDevice → seen.evidence sha256 = expected →
      guard (.io (.removeFile access.parent access.name)) world ∧
        (fsMachine host weather).Admits guard (world.unlink (access.slot host)) ∧
        post (.ok ()) (world.unlink (access.slot host)) ∧
        (weather.fails → ∀ error, post (.error error) (world.unlink (access.slot host)))) :
    (access.removeExact sha256 expected maxBytes).run.Meets (fsMachine host weather) guard post
      world := by
  unfold removeExact
  refine meets_reader (verifySlot_learns sha256 (.present expected) maxBytes (here_look _)) admits
    (fun actual good => ?_) fun error cause => stuck error fun ⟨seen, shows, plain, fits, same⟩ =>
      cause ⟨by rw [shows]; exact ⟨plain, fits⟩, fun actual found => ?_⟩
  · obtain ⟨_, seen, shows, plain, same⟩ := good
    obtain ⟨guarded, admitted, ended, failed⟩ := unlinks seen shows plain same.symm
    have executed := exec_removeFile shows plain.file.1
    refine meets_call (fun _ => id) guarded ?_ fun fails error =>
      ⟨stuck error fun _ => fails, ?_⟩
    · rw [executed]
      refine meets_reader syncParent_learns admitted (fun _ _ => ?_)
        fun error cause => failed (cause trivial) error
      exact meets_last (requireAbsent_learns (here_look _)) admitted (fun _ _ => ended)
        fun error cause => failed (cause World.look_unlink_self) error
    · rw [executed]
      exact failed fails error
  · rw [shows] at found
    cases actual with
    | absent => cases found
    | present evidence =>
        obtain ⟨other, shown, _, rfl⟩ := found
        cases shown
        rw [same]

theorem removeArtifact_meets {post : Except IoError Bool → World → Prop}
    (valid : validateArtifactName name = .ok ())
    (admits : (fsMachine host weather).Admits guard world)
    (stuck : ∀ error, ((∀ seen, world.look (access.artifact host name) = some seen →
      seen.File access.rootDevice ∧ seen.links = 1) → weather.fails) → post (.error error) world)
    (nothing : world.look (access.artifact host name) = none → post (.ok false) world)
    (unlinks : ∀ seen, world.look (access.artifact host name) = some seen →
      seen.File access.rootDevice → seen.links = 1 →
      guard (.io (.removeFile access.parent name)) world ∧
        (fsMachine host weather).Admits guard (world.unlink (access.artifact host name)) ∧
        post (.ok true) (world.unlink (access.artifact host name)) ∧
        (weather.fails → ∀ error,
          post (.error error) (world.unlink (access.artifact host name)))) :
    (access.removeArtifact name).run.Meets (fsMachine host weather) guard post world := by
  unfold removeArtifact
  rw [valid, liftExcept_ok_bind]
  refine meets_attempt_symlinkMetadata admits (fun seen shows => ?_) (fun error gone kind => ?_)
    fun fails error kind => ?_
  · by_cases bad : (isLinkOrReparse seen.metadata || decide (seen.metadata.kind ≠ .file) ||
        decide (seen.metadata.device ≠ access.rootDevice) ||
        decide (seen.metadata.links ≠ 1)) = true
    · simp only [if_pos bad]
      refine stuck _ fun safe => ?_
      rw [(unsafe_iff seen access.rootDevice 1).mpr (safe seen shows)] at bad
      cases bad
    · simp only [if_neg bad]
      have safe := (unsafe_iff seen access.rootDevice 1).mp (by simpa using bad)
      obtain ⟨guarded, admitted, ended, failed⟩ := unlinks seen shows safe.1 safe.2
      have executed := exec_removeFile shows safe.1.1
      refine meets_call (fun _ => id) guarded ?_ fun fails error =>
        ⟨stuck error fun _ => fails, ?_⟩
      · rw [executed]
        exact meets_reader syncParent_learns admitted (fun _ _ => ended)
          fun error cause => failed (cause trivial) error
      · rw [executed]
        exact failed fails error
  · simp only [if_pos kind]
    exact nothing gone
  · simp only [if_neg kind]
    exact stuck _ fun _ => fails

end

end TargetAccess

end Worktree
