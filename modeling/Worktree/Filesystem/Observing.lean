import Worktree.Filesystem.Reading
/-
What each reader of a slot, of an artifact and of a backup finds out, from what
the directory entries show.
-/

namespace Worktree

open CrashLogic

section

variable {α : Type} {host : Host} {weather : Weather} {known : World → Prop}
  {dir : Ino} {name : String} {view : Option Seen} {post : Except IoError α → Prop}

/-! ### Single calls about one entry -/

theorem learns_symlinkMetadata {next : Metadata → Io α}
    (sees : ∀ world, known world → world.look (host.slot dir name) = view)
    (found : ∀ seen, view = some seen →
      (next seen.metadata).run.Learns (fsMachine host weather) known post)
    (missing : view = none → post (.error .missing))
    (fault : weather.fails → ∀ error : IoError, (error.kind = .notFound → view = none) →
      post (.error error)) :
    (perform (.symlinkMetadata dir name) >>= next).run.Learns (fsMachine host weather)
      known post := by
  refine learns_call (quiet_symlinkMetadata dir name) id (fun world knows => ?_)
    fun fails world knows error absent => fault fails error fun kind => ?_
  · simp only [FsCall.exec, sees world knows]
    cases view with
    | none => exact missing rfl
    | some seen => exact found seen rfl
  · have gone := absent kind
    simpa [FsCall.present, sees world knows] using gone

theorem learns_attempt_symlinkMetadata {next : Except IoError Metadata → Io α}
    (sees : ∀ world, known world → world.look (host.slot dir name) = view)
    (found : ∀ seen, view = some seen →
      (next (.ok seen.metadata)).run.Learns (fsMachine host weather) known post)
    (missing : ∀ error : IoError, view = none → error.kind = .notFound →
      (next (.error error)).run.Learns (fsMachine host weather) known post)
    (fault : weather.fails → ∀ error : IoError, error.kind ≠ .notFound →
      (next (.error error)).run.Learns (fsMachine host weather) known post) :
    (attempt (perform (.symlinkMetadata dir name)) >>= next).run.Learns (fsMachine host weather)
      known post := by
  refine learns_attempt (learns_perform (quiet_symlinkMetadata dir name) id
    (fun world knows => ?_) fun fails world knows error absent => ?_)
  · simp only [FsCall.exec, sees world knows]
    cases view with
    | none => exact missing .missing rfl rfl
    | some seen => exact found seen rfl
  · by_cases kind : error.kind = .notFound
    · have gone := absent kind
      exact missing error (by simpa [FsCall.present, sees world knows] using gone) kind
    · exact fault fails error kind

theorem learns_openRead {next : Ino → Io α}
    (sees : ∀ world, known world → world.look (host.slot dir name) = view)
    (found : ∀ seen, view = some seen → seen.inode.kind ≠ .symlink →
      (next seen.ino).run.Learns (fsMachine host weather) known post)
    (missing : view = none → post (.error .missing))
    (link : ∀ seen, view = some seen → seen.inode.kind = .symlink → post (.error .looped))
    (fault : weather.fails → ∀ error : IoError, (error.kind = .notFound → view = none) →
      post (.error error)) :
    (perform (.openFile dir name .read) >>= next).run.Learns (fsMachine host weather)
      known post := by
  refine learns_call (quiet_openRead dir name) id (fun world knows => ?_)
    fun fails world knows error absent => fault fails error fun kind => ?_
  · simp only [FsCall.exec, FsCall.execOpen, sees world knows]
    cases view with
    | none => exact missing rfl
    | some seen =>
        cases kind : seen.inode.kind with
        | symlink => simpa only [kind] using link seen rfl kind
        | file => simpa only [kind] using found seen rfl (by simp [kind])
        | directory => simpa only [kind] using found seen rfl (by simp [kind])
  · have gone := absent kind
    simpa [FsCall.present, sees world knows] using gone

theorem seen_of_look {world : World} {slot : Slot} {seen : Seen}
    (shows : world.look slot = some seen) : world.seen seen.ino = seen := by
  obtain ⟨ino, _, rfl⟩ := Option.map_eq_some_iff.mp shows
  rfl

theorem inode_of_look {world : World} {slot : Slot} {seen : Seen}
    (shows : world.look slot = some seen) : world.inodes seen.ino = seen.inode :=
  congrArg Seen.inode (seen_of_look shows)

theorem learns_metadata {next : Metadata → Io α} {seen : Seen}
    (sees : ∀ world, known world → world.look (host.slot dir name) = some seen)
    (found : (next seen.metadata).run.Learns (fsMachine host weather) known post)
    (fault : weather.fails → ∀ error : IoError, error.kind ≠ .notFound →
      post (.error error)) :
    (perform (.metadata seen.ino) >>= next).run.Learns (fsMachine host weather) known post := by
  refine learns_call (quiet_metadata seen.ino) id (fun world knows => ?_)
    fun fails world knows error absent => fault fails error fun kind => absent kind trivial
  simp only [FsCall.exec, seen_of_look (sees world knows)]
  exact found

theorem learns_read {next : Bytes → Io α} {seen : Seen} {limit : Nat}
    (sees : ∀ world, known world → world.look (host.slot dir name) = some seen)
    (file : seen.inode.kind ≠ .directory)
    (found : (next (seen.inode.bytes.take limit)).run.Learns (fsMachine host weather) known post)
    (fault : weather.fails → ∀ error : IoError, error.kind ≠ .notFound →
      post (.error error)) :
    (perform (.read seen.ino limit) >>= next).run.Learns (fsMachine host weather) known post := by
  refine learns_call (quiet_read seen.ino limit) id (fun world knows => ?_)
    fun fails world knows error absent => fault fails error fun kind => absent kind trivial
  simp only [FsCall.exec, inode_of_look (sees world knows), if_neg file]
  exact found

/-- Reading one byte more than allowed tells whether the file is too long. -/
theorem learns_limit {next : Nat → Io α} (maxBytes : Nat) (message : String)
    (room : maxBytes + 1 ≤ u64Max →
      (next (maxBytes + 1)).run.Learns (fsMachine host weather) known post)
    (overflow : ¬ maxBytes + 1 ≤ u64Max → post (.error (invalid message))) :
    (liftExcept ((checkedAdd maxBytes 1).elim (.error (invalid message)) .ok) >>= next).run.Learns
      (fsMachine host weather) known post := by
  by_cases fits : maxBytes + 1 ≤ u64Max
  · rw [checkedAdd, if_pos fits]
    exact room fits
  · rw [checkedAdd, if_neg fits]
    exact overflow fits

theorem take_too_long {bytes : Bytes} {maxBytes : Nat} :
    (bytes.take (maxBytes + 1)).length > maxBytes ↔ ¬ bytes.length ≤ maxBytes := by
  rw [List.length_take]
  omega

theorem take_whole {bytes : Bytes} {maxBytes : Nat} (fits : bytes.length ≤ maxBytes) :
    bytes.take (maxBytes + 1) = bytes :=
  List.take_of_length_le (by omega)

end

/-! ### The target -/

namespace TargetAccess

variable {host : Host} {weather : Weather} {known : World → Prop} {access : TargetAccess}
  {view : Option Seen}

def slot (host : Host) (access : TargetAccess) : Slot :=
  host.slot access.parent access.name

def artifact (host : Host) (access : TargetAccess) (name : String) : Slot :=
  host.slot access.parent name

theorem openFile_learns
    (sees : ∀ world, known world → world.look (access.slot host) = view) :
    access.openFile.run.Learns (fsMachine host weather) known
      (Answers weather (fun file => ∃ seen, view = some seen ∧ seen.Plain access.rootDevice ∧
        file = seen.ino) (∃ seen, view = some seen ∧ seen.Plain access.rootDevice)
        (view = none)) := by
  unfold openFile
  refine learns_symlinkMetadata sees (fun seen shows => ?_) (fun gone => ?_)
    fun fails error absent => answers_fault fails absent
  · have sees : ∀ world, known world → world.look (access.slot host) = some seen :=
      fun world knows => (sees world knows).trans shows
    by_cases link : isLinkOrReparse seen.metadata = true
    · rw [if_pos link]
      refine learns_throw_bind _ (answers_refused ?_ (by simp [invalid]))
      rintro ⟨other, shown, plain⟩
      cases shows.symm.trans shown
      have symlink := (isLinkOrReparse_metadata seen).mp link
      rw [plain.file.1] at symlink
      cases symlink
    · rw [if_neg link]
      refine learns_liftExcept _ (fun _ valid => ?_) fun error failed => ?_
      · have plain := (validateMetadata_ok seen access.rootDevice).mp valid
        refine learns_openRead sees (fun other shown file => ?_) (fun impossible => ?_)
          (fun other shown symlink => ?_) fun fails error absent => ?_
        · cases shown
          refine learns_metadata sees ?_ fun fails error kind => answers_failed fails kind
          refine learns_liftExcept _ (fun _ valid => ?_) fun error failed => ?_
          · rw [if_neg (by simp)]
            exact learns_pure _ ⟨seen, shows, plain, rfl⟩
          · rw [valid] at failed
            cases failed
        · cases impossible
        · cases shown
          rw [plain.file.1] at symlink
          cases symlink
        · exact answers_fault fails fun kind => absurd (absent kind) (by simp)
      · refine answers_refused ?_ (validateMetadata_error failed)
        rintro ⟨other, shown, plain⟩
        cases shows.symm.trans shown
        rw [(validateMetadata_ok seen access.rootDevice).mpr plain] at failed
        cases failed
  · refine ⟨fun clear => ?_, fun _ => gone⟩
    obtain ⟨seen, shown, _⟩ := clear
    rw [gone] at shown
    cases shown

theorem snapshot_learns (maxBytes : Nat)
    (sees : ∀ world, known world → world.look (access.slot host) = view) :
    (access.snapshot maxBytes).run.Learns (fsMachine host weather) known
      (Answers weather (fun snapshot => ∃ seen, view = some seen ∧ seen.Plain access.rootDevice ∧
        Fits maxBytes seen ∧ snapshot = ⟨seen.inode.bytes, seen.identity,
          .fromPermissions seen.inode.mode⟩)
        (∃ seen, view = some seen ∧ seen.Plain access.rootDevice ∧ Fits maxBytes seen)
        (view = none)) := by
  unfold snapshot
  refine learns_then (openFile_learns sees) ?_ fun error answered =>
    answers_error_of answered (fun ⟨seen, shows, plain, _⟩ => ⟨seen, shows, plain⟩) id
  rintro _ ⟨seen, rfl, plain, rfl⟩
  refine learns_metadata sees ?_ fun fails error kind => answers_failed fails kind
  rw [(validateMetadata_ok seen access.rootDevice).mpr plain]
  refine learns_liftExcept _ (fun _ _ => ?_) fun error failed => by cases failed
  refine learns_limit maxBytes _ (fun room => ?_) fun overflow => ?_
  · refine learns_read sees (by rw [plain.file.1]; simp) ?_
      fun fails error kind => answers_failed fails kind
    by_cases long : (seen.inode.bytes.take (maxBytes + 1)).length > maxBytes
    · rw [if_pos long]
      refine learns_throw_bind _ (answers_refused ?_ (by simp [invalid]))
      rintro ⟨other, shown, _, fits⟩
      cases shown
      exact take_too_long.mp long fits.length
    · rw [if_neg long]
      have short : seen.inode.bytes.length ≤ maxBytes := by
        by_contra exceeds
        exact long (take_too_long.mpr exceeds)
      rw [take_whole short]
      exact learns_pure _ ⟨seen, rfl, plain, ⟨short, room⟩, rfl⟩
  · refine answers_refused ?_ (by simp [invalid])
    rintro ⟨_, _, _, fits⟩
    exact overflow fits.limit

theorem probe_learns (sees : ∀ world, known world → world.look (access.slot host) = view) :
    access.probe.run.Learns (fsMachine host weather) known
      (Answers weather (fun probe => ∃ seen, view = some seen ∧ seen.Plain access.rootDevice ∧
        probe = ⟨seen.inode.bytes.length, seen.identity, .fromPermissions seen.inode.mode⟩)
        (∃ seen, view = some seen ∧ seen.Plain access.rootDevice) (view = none)) := by
  unfold probe
  refine learns_then (openFile_learns sees) ?_ fun error answered =>
    answers_error_of answered id id
  rintro _ ⟨seen, rfl, plain, rfl⟩
  refine learns_metadata sees ?_ fun fails error kind => answers_failed fails kind
  rw [(validateMetadata_ok seen access.rootDevice).mpr plain]
  refine learns_liftExcept _ (fun _ _ => ?_) fun error failed => by cases failed
  exact learns_pure _ ⟨seen, rfl, plain, rfl⟩

theorem probeSlot_learns (sees : ∀ world, known world → world.look (access.slot host) = view) :
    access.probeSlot.run.Learns (fsMachine host weather) known
      (Answers weather (fun probe => match probe with
        | .absent => view = none
        | .present probe => ∃ seen, view = some seen ∧ seen.Plain access.rootDevice ∧
            probe = ⟨seen.inode.bytes.length, seen.identity, .fromPermissions seen.inode.mode⟩)
        (∀ seen, view = some seen → seen.Plain access.rootDevice) False) := by
  unfold probeSlot
  refine learns_attempt_symlinkMetadata sees (fun seen shows => ?_) (fun error gone kind => ?_)
    fun fails error kind => ?_
  · by_cases link : isLinkOrReparse seen.metadata = true
    · simp only [if_pos link]
      refine learns_throw_bind _ (answers_refused ?_ (by simp [invalid]))
      intro plain
      have symlink := (isLinkOrReparse_metadata seen).mp link
      rw [(plain seen shows).file.1] at symlink
      cases symlink
    · simp only [if_neg link]
      refine learns_liftExcept _ (fun _ valid => ?_) fun error failed => ?_
      · have plain := (validateMetadata_ok seen access.rootDevice).mp valid
        exact learns_pure _ ⟨seen, shows, plain, rfl⟩
      · refine answers_refused ?_ (validateMetadata_error failed)
        intro plain
        rw [(validateMetadata_ok seen access.rootDevice).mpr (plain seen shows)] at failed
        cases failed
  · simp only [if_pos kind]
    exact learns_pure _ gone
  · simp only [if_neg kind]
    exact learns_throw _ (answers_failed fails kind)

theorem snapshotSlot_learns (maxBytes : Nat)
    (sees : ∀ world, known world → world.look (access.slot host) = view) :
    (access.snapshotSlot maxBytes).run.Learns (fsMachine host weather) known
      (Answers weather (fun snapshot => match snapshot with
        | .absent => view = none
        | .present snapshot => ∃ seen, view = some seen ∧ seen.Plain access.rootDevice ∧
            Fits maxBytes seen ∧ snapshot = ⟨seen.inode.bytes, seen.identity,
              .fromPermissions seen.inode.mode⟩)
        (Readable access.rootDevice maxBytes view) (view = none)) := by
  unfold snapshotSlot
  refine learns_then (probeSlot_learns sees) ?_ fun error answered =>
    answers_error_of answered ?_ False.elim
  · rintro (_ | probe) good
    · exact learns_pure _ good
    · obtain ⟨seen, rfl, plain, _⟩ := good
      refine learns_then (snapshot_learns maxBytes sees) ?_ fun error answered =>
        answers_error_of answered (fun readable => ⟨seen, rfl, readable⟩) id
      exact fun snapshot good => learns_pure _ good
  · rintro readable seen rfl
    exact readable.1

theorem slotEvidence_learns (sha256 : Bytes → Sha256Hash) (maxBytes : Nat)
    (sees : ∀ world, known world → world.look (access.slot host) = view) :
    (access.slotEvidence sha256 maxBytes).run.Learns (fsMachine host weather) known
      (Answers weather (Shows sha256 access.rootDevice view)
        (Readable access.rootDevice maxBytes view) (view = none)) := by
  unfold slotEvidence
  refine learns_then (snapshotSlot_learns maxBytes sees) ?_ fun error answered =>
    answers_error_of answered id id
  rintro (_ | snapshot) good
  · exact learns_pure _ good
  · obtain ⟨seen, rfl, plain, _, rfl⟩ := good
    exact learns_pure _ ⟨seen, rfl, plain, rfl⟩

theorem verifySlot_learns (sha256 : Bytes → Sha256Hash) (expected : SlotEvidence) (maxBytes : Nat)
    (sees : ∀ world, known world → world.look (access.slot host) = view) :
    (access.verifySlot sha256 expected maxBytes).run.Learns (fsMachine host weather) known
      (Answers weather (fun actual => actual = expected ∧
          Shows sha256 access.rootDevice view expected)
        (Readable access.rootDevice maxBytes view ∧
          ∀ actual, Shows sha256 access.rootDevice view actual → actual = expected)
        (view = none)) := by
  unfold verifySlot
  refine learns_then (slotEvidence_learns sha256 maxBytes sees) ?_ fun error answered =>
    answers_error_of answered And.left id
  intro actual shows
  by_cases same : actual = expected
  · rw [if_pos same]
    subst same
    exact learns_pure _ ⟨rfl, shows⟩
  · rw [if_neg same]
    exact learns_throw _ (answers_refused (fun clear => same (clear.2 actual shows))
      (by simp [invalid]))

theorem requireAbsent_learns
    (sees : ∀ world, known world → world.look (access.slot host) = view) :
    access.requireAbsent.run.Learns (fsMachine host weather) known
      (Answers weather (fun _ => view = none) (view = none) False) := by
  unfold requireAbsent
  refine learns_then (probeSlot_learns sees) ?_ fun error answered =>
    answers_error_of answered ?_ id
  · rintro (_ | probe) good
    · exact learns_pure _ good
    · obtain ⟨seen, rfl, _⟩ := good
      exact learns_throw _ (answers_refused (by simp) (by simp))
  · rintro rfl seen shown
    cases shown

theorem syncParent_learns :
    access.syncParent.run.Learns (fsMachine host weather) known
      (Answers weather (fun _ => True) True False) :=
  learns_perform (quiet_syncDir access.parent) id (fun _ _ => trivial)
    fun fails _ _ _ absent => answers_fault fails fun kind => absent kind trivial

/-! ### Artifacts beside the target -/

section

variable {name : String} {other : Option Seen}

theorem validateArtifactName_error {name : String} {error : IoError}
    (failed : validateArtifactName name = .error error) : error.kind ≠ .notFound := by
  unfold validateArtifactName at failed
  split at failed
  · cases failed
    simp [invalid]
  · cases failed

theorem learns_artifactName {α : Type} {next : Unit → Io α} {good : α → Prop}
    {clear missing : Prop} (valid : clear → validateArtifactName name = .ok ())
    (then_ : (next ()).run.Learns (fsMachine host weather) known
      (Answers weather good clear missing)) :
    (liftExcept (validateArtifactName name) >>= next).run.Learns (fsMachine host weather) known
      (Answers weather good clear missing) := by
  refine learns_liftExcept _ (fun _ _ => then_) fun error failed => ?_
  refine answers_refused (fun holds => ?_) (validateArtifactName_error failed)
  rw [valid holds] at failed
  cases failed

theorem unsafe_iff (seen : Seen) (device links : Nat) :
    (isLinkOrReparse seen.metadata || decide (seen.metadata.kind ≠ .file) ||
      decide (seen.metadata.device ≠ device) || decide (seen.metadata.links ≠ links)) = false ↔
      seen.File device ∧ seen.links = links := by
  simp only [isLinkOrReparse, Bool.or_eq_false_iff, decide_eq_false_iff_not, not_not]
  constructor
  · rintro ⟨⟨⟨_, kind⟩, onDevice⟩, count⟩
    exact ⟨⟨kind, onDevice⟩, count⟩
  · rintro ⟨⟨kind, onDevice⟩, count⟩
    refine ⟨⟨⟨fun symlink => ?_, kind⟩, onDevice⟩, count⟩
    cases kind.symm.trans symlink

theorem safeArtifactIdentity_learns (expectedLinks : Nat)
    (sees : ∀ world, known world → world.look (access.artifact host name) = other) :
    (access.safeArtifactIdentity name expectedLinks).run.Learns (fsMachine host weather) known
      (Answers weather (fun identity => ∃ seen, other = some seen ∧
          seen.File access.rootDevice ∧ seen.links = expectedLinks ∧ identity = seen.identity)
        (validateArtifactName name = .ok () ∧ ∃ seen, other = some seen ∧
          seen.File access.rootDevice ∧ seen.links = expectedLinks)
        (other = none)) := by
  unfold safeArtifactIdentity
  refine learns_artifactName And.left ?_
  refine learns_symlinkMetadata sees (fun seen shows => ?_) (fun gone => ?_)
    fun fails error absent => answers_fault fails absent
  · split
    · next bad =>
        refine learns_throw_bind _ (answers_refused ?_ (by simp [invalid]))
        rintro ⟨_, found, shown, file, links⟩
        cases shows.symm.trans shown
        rw [(unsafe_iff seen access.rootDevice expectedLinks).mpr ⟨file, links⟩] at bad
        cases bad
    · next safe =>
        have proper := (unsafe_iff seen access.rootDevice expectedLinks).mp (by simpa using safe)
        exact learns_pure _ ⟨seen, shows, proper.1, proper.2, rfl⟩
  · refine ⟨fun clear => ?_, fun _ => gone⟩
    obtain ⟨_, seen, shown, _⟩ := clear
    rw [gone] at shown
    cases shown

theorem readArtifact_learns (maxBytes : Nat)
    (sees : ∀ world, known world → world.look (access.artifact host name) = other) :
    (access.readArtifact name maxBytes).run.Learns (fsMachine host weather) known
      (Answers weather (fun bytes => ∃ seen, other = some seen ∧
          seen.File access.rootDevice ∧ seen.links = 1 ∧ Fits maxBytes seen ∧
          bytes = seen.inode.bytes)
        (validateArtifactName name = .ok () ∧ ∃ seen, other = some seen ∧
          seen.File access.rootDevice ∧ seen.links = 1 ∧ Fits maxBytes seen)
        (other = none)) := by
  unfold readArtifact openArtifact
  rw [bind_assoc]
  refine learns_artifactName And.left ?_
  refine learns_openRead sees (fun seen shows file => ?_) (fun gone => ?_)
    (fun seen shows symlink => ?_) fun fails error absent => answers_fault fails absent
  · subst shows
    refine learns_metadata sees ?_ fun fails error kind => answers_failed fails kind
    split
    · next bad =>
        refine learns_throw_bind _ (answers_refused ?_ (by simp [invalid]))
        rintro ⟨_, found, shown, proper, links, _⟩
        cases shown
        simp [Seen.metadata, proper.1, proper.2, links] at bad
    · next safe =>
        have proper : seen.File access.rootDevice ∧ seen.links = 1 := by
          simp only [Bool.or_eq_true, decide_eq_true_eq, not_or, not_not] at safe
          exact ⟨⟨safe.1.1, safe.1.2⟩, safe.2⟩
        refine learns_limit maxBytes _ (fun room => ?_) fun overflow => ?_
        · refine learns_read sees (by rw [proper.1.1]; simp) ?_
            fun fails error kind => answers_failed fails kind
          by_cases long : (seen.inode.bytes.take (maxBytes + 1)).length > maxBytes
          · rw [if_pos long]
            refine learns_throw_bind _ (answers_refused ?_ (by simp [invalid]))
            rintro ⟨_, found, shown, _, _, fits⟩
            cases shown
            exact take_too_long.mp long fits.length
          · rw [if_neg long]
            have short : seen.inode.bytes.length ≤ maxBytes := by
              by_contra exceeds
              exact long (take_too_long.mpr exceeds)
            rw [take_whole short]
            exact learns_pure _ ⟨seen, rfl, proper.1, proper.2, ⟨short, room⟩, rfl⟩
        · refine answers_refused ?_ (by simp [invalid])
          rintro ⟨_, _, _, _, _, fits⟩
          exact overflow fits.limit
  · refine ⟨fun clear => ?_, fun _ => gone⟩
    obtain ⟨_, seen, shown, _⟩ := clear
    rw [gone] at shown
    cases shown
  · refine answers_refused ?_ (by simp [IoError.looped])
    rintro ⟨_, found, shown, file, _⟩
    cases shows.symm.trans shown
    rw [file.1] at symlink
    cases symlink

theorem artifactEvidence_learns (sha256 : Bytes → Sha256Hash) (maxBytes : Nat)
    (sees : ∀ world, known world → world.look (access.artifact host name) = other) :
    (access.artifactEvidence sha256 name maxBytes).run.Learns (fsMachine host weather) known
      (Answers weather (fun evidence => ∃ seen, other = some seen ∧
          seen.File access.rootDevice ∧ seen.links = 1 ∧ Fits maxBytes seen ∧
          evidence = seen.evidence sha256)
        (validateArtifactName name = .ok () ∧ ∃ seen, other = some seen ∧
          seen.File access.rootDevice ∧ seen.links = 1 ∧ Fits maxBytes seen)
        (other = none)) := by
  unfold artifactEvidence
  refine learns_then (readArtifact_learns maxBytes sees) ?_ fun error answered =>
    answers_error_of answered id id
  rintro _ ⟨seen, rfl, file, links, fits, rfl⟩
  refine learns_then (safeArtifactIdentity_learns 1 sees) ?_ fun error answered =>
    answers_error_of answered (fun ⟨valid, _⟩ => ⟨valid, seen, rfl, file, links⟩) id
  rintro _ ⟨found, shown, _, _, rfl⟩
  cases shown
  refine learns_symlinkMetadata sees (fun found shown => ?_) (fun impossible => by cases impossible)
    fun fails error absent => answers_fault fails absent
  cases shown
  exact learns_pure _ ⟨seen, rfl, file, links, fits, rfl⟩

theorem linked_iff (target staged : Seen) (device : Nat) (first : target.File device)
    (second : staged.File device) (same : target.ino = staged.ino → target = staged) :
    (decide (target.metadata.identity = staged.metadata.identity) &&
      decide (target.metadata.links = 2) && decide (staged.metadata.links = 2)) = true ↔
      Linked device (some target) (some staged) := by
  simp only [Bool.and_eq_true, decide_eq_true_eq]
  constructor
  · rintro ⟨⟨identical, double⟩, _⟩
    have aliased := same (congrArg FileIdentity.inode identical)
    subst aliased
    exact ⟨target, rfl, rfl, first, double⟩
  · rintro ⟨seen, here, shown, _, double⟩
    cases here
    cases shown
    exact ⟨⟨rfl, double⟩, double⟩

theorem look_same {world : World} {first second : Slot} {target staged : Seen}
    (one : world.look first = some target) (two : world.look second = some staged)
    (same : target.ino = staged.ino) : target = staged := by
  have here := seen_of_look one
  rw [same, seen_of_look two] at here
  exact here.symm

theorem sameFileAsArtifact_learns
    (first : ∀ world, known world → world.look (access.slot host) = view)
    (second : ∀ world, known world → world.look (access.artifact host name) = other)
    (consistent : ∀ target staged, view = some target → other = some staged →
      target.ino = staged.ino → target = staged) :
    (access.sameFileAsArtifact name).run.Learns (fsMachine host weather) known
      (Answers weather (fun same => ∃ target staged, view = some target ∧ other = some staged ∧
          target.File access.rootDevice ∧ staged.File access.rootDevice ∧
          (same = true ↔ Linked access.rootDevice view other))
        (validateArtifactName name = .ok () ∧ ∃ target staged, view = some target ∧
          other = some staged ∧ target.File access.rootDevice ∧ staged.File access.rootDevice)
        (view = none ∨ other = none)) := by
  unfold sameFileAsArtifact
  refine learns_artifactName And.left ?_
  refine learns_symlinkMetadata first (fun target shows => ?_) (fun gone => ?_)
    fun fails error absent => answers_fault fails fun kind => .inl (absent kind)
  · refine learns_symlinkMetadata second (fun staged stages => ?_) (fun gone => ?_)
      fun fails error absent => answers_fault fails fun kind => .inr (absent kind)
    · subst shows stages
      have refused : ∀ message, ¬ (target.File access.rootDevice ∧
          staged.File access.rootDevice) → Answers weather
          (fun same => ∃ target' staged', some target = some target' ∧
            some staged = some staged' ∧ target'.File access.rootDevice ∧
            staged'.File access.rootDevice ∧
            (same = true ↔ Linked access.rootDevice (some target) (some staged)))
          (validateArtifactName name = .ok () ∧ ∃ target' staged', some target = some target' ∧
            some staged = some staged' ∧ target'.File access.rootDevice ∧
            staged'.File access.rootDevice)
          (some target = none ∨ some staged = none) (.error (invalid message)) := by
        intro message improper
        refine answers_refused ?_ (by simp [invalid])
        rintro ⟨_, target', staged', here, there, file, file'⟩
        cases here
        cases there
        exact improper ⟨file, file'⟩
      by_cases link : (isLinkOrReparse target.metadata || isLinkOrReparse staged.metadata) = true
      · rw [if_pos link]
        refine learns_throw_bind _ (refused _ ?_)
        rintro ⟨file, file'⟩
        rcases Bool.or_eq_true_iff.mp link with bad | bad
        · have symlink := (isLinkOrReparse_metadata target).mp bad
          cases file.1.symm.trans symlink
        · have symlink := (isLinkOrReparse_metadata staged).mp bad
          cases file'.1.symm.trans symlink
      · rw [if_neg link]
        by_cases bad : (decide (target.metadata.kind ≠ .file) ||
            decide (staged.metadata.kind ≠ .file) ||
            decide (target.metadata.device ≠ access.rootDevice) ||
            decide (staged.metadata.device ≠ access.rootDevice)) = true
        · rw [if_pos bad]
          refine learns_throw_bind _ (refused _ ?_)
          rintro ⟨file, file'⟩
          simp only [Bool.or_eq_true, decide_eq_true_eq] at bad
          rcases bad with ((bad | bad) | bad) | bad
          · exact bad file.1
          · exact bad file'.1
          · exact bad file.2
          · exact bad file'.2
        · rw [if_neg bad]
          simp only [Bool.or_eq_true, decide_eq_true_eq, not_or, not_not] at bad
          have file : target.File access.rootDevice := ⟨bad.1.1.1, bad.1.2⟩
          have file' : staged.File access.rootDevice := ⟨bad.1.1.2, bad.2⟩
          exact learns_pure _ ⟨target, staged, rfl, rfl, file, file',
            linked_iff target staged access.rootDevice file file'
              (consistent target staged rfl rfl)⟩
    · refine ⟨fun clear => ?_, fun _ => .inr gone⟩
      obtain ⟨_, _, _, _, shown, _⟩ := clear
      rw [gone] at shown
      cases shown
  · refine ⟨fun clear => ?_, fun _ => .inl gone⟩
    obtain ⟨_, _, _, shown, _⟩ := clear
    rw [gone] at shown
    cases shown

end

end TargetAccess

end Worktree
