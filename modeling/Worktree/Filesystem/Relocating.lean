import Worktree.Filesystem.Calm
import Worktree.Filesystem.Changing
import Worktree.Filesystem.Confinement
/-
Moving a backup from beside its target into the state directory.

The mover looks for the file in both places. It moves an exact file that lies
beside the target only, is content with an exact one that lies in the state
directory only, and otherwise changes nothing.
-/

namespace Worktree

open CrashLogic

/-! ### Where a backup lies -/

/-- The file lies in one of the two places, and nothing in the other. -/
def Lies (world : World) (beside inside : Slot) (seen : Seen) : Prop :=
  (world.look beside = some seen ∧ world.look inside = none) ∨
    (world.look beside = none ∧ world.look inside = some seen)

/-- The file has the recorded evidence, and can be read whole. -/
structure Exact (sha256 : Bytes → Sha256Hash) (device maxBytes : Nat) (expected : PresentEvidence)
    (seen : Seen) : Prop where
  file : seen.File device
  links : seen.links = 1
  fits : Fits maxBytes seen
  same : seen.evidence sha256 = expected

section

variable {host : Host} {weather : Weather} {world : World} {known : World → Prop}
  {view : Option Seen} {control : ControlDir} {target : TargetAccess} {name : String}
  {sha256 : Bytes → Sha256Hash} {maxBytes : Nat} {expected : PresentEvidence}

theorem Lies.apart {beside inside : Slot} {seen : Seen} (lies : Lies world beside inside seen) :
    beside ≠ inside := by
  rintro rfl
  rcases lies with ⟨some_, none_⟩ | ⟨none_, some_⟩
  · rw [some_] at none_
    cases none_
  · rw [some_] at none_
    cases none_

/-! ### Optional evidence -/

/-- What is answered where nothing is. -/
def Denies {α : Type} (weather : Weather) (result : Except IoError α) : Prop :=
  ∃ error, result = .error error ∧ (weather.fails ∨ error.kind = .notFound)

theorem openRead_denies {α : Type} {next : Ino → Io α} {dir : Ino}
    (sees : ∀ here, known here → here.look (host.slot dir name) = none) :
    (perform (.openFile dir name .read) >>= next).run.Learns (fsMachine host weather) known
      (Denies weather) := by
  refine learns_openRead sees (fun seen impossible => ?_) (fun _ => ?_)
    (fun seen impossible => ?_) fun fails error _ => ⟨error, rfl, .inl fails⟩
  · cases impossible
  · exact ⟨_, rfl, .inr rfl⟩
  · cases impossible

theorem artifactEvidence_denies (valid : validateArtifactName name = .ok ())
    (sees : ∀ here, known here → here.look (target.artifact host name) = none) :
    (target.artifactEvidence sha256 name maxBytes).run.Learns (fsMachine host weather) known
      (Denies weather) := by
  unfold TargetAccess.artifactEvidence TargetAccess.readArtifact TargetAccess.openArtifact
  rw [valid, liftExcept_ok_bind, bind_assoc]
  exact openRead_denies sees

theorem backupEvidence_denies (valid : validateArtifactName name = .ok ())
    (sees : ∀ here, known here → here.look (host.slot control.dir name) = none) :
    (control.backupEvidence sha256 name maxBytes).run.Learns (fsMachine host weather) known
      (Denies weather) := by
  unfold ControlDir.backupEvidence ControlDir.backupEvidenceWithLinks
  rw [valid, liftExcept_ok_bind]
  exact openRead_denies sees

/-- Evidence is found or nothing is there, unless what is there is not clear. -/
theorem optionalEvidence_learns {evidence : Io PresentEvidence} {good : PresentEvidence → Prop}
    {clear : Prop}
    (answers : evidence.run.Learns (fsMachine host weather) known
      (Answers weather good clear (view = none)))
    (denies : view = none → evidence.run.Learns (fsMachine host weather) known (Denies weather)) :
    (ControlDir.optionalEvidence evidence).run.Learns (fsMachine host weather) known
      (Answers weather (fun found => match found with
        | none => view = none
        | some evidence => good evidence) (clear ∨ view = none) False) := by
  unfold ControlDir.optionalEvidence
  refine learns_attempt ?_
  cases shown : view with
  | none =>
      refine (denies shown).mono fun result denied => ?_
      obtain ⟨error, rfl, cause⟩ := denied
      by_cases missing : error.kind = .notFound
      · simp only [if_pos missing]
        exact learns_pure _ trivial
      · simp only [if_neg missing]
        exact learns_throw _ (answers_failed (cause.resolve_right missing) missing)
  | some seen =>
      refine answers.mono fun result answered => ?_
      cases result with
      | ok found => exact learns_pure _ answered
      | error error =>
          have there : error.kind ≠ .notFound := by
            intro missing
            rw [shown] at answered
            cases answered.2 missing
          simp only [if_neg there]
          refine learns_throw _ ⟨fun holds => ?_, fun missing => there missing⟩
          rcases holds with clear | impossible
          · exact answered.1 clear
          · cases impossible

/-- What is found in one of the places. -/
def Retrieves (sha256 : Bytes → Sha256Hash) (device maxBytes : Nat) (view : Option Seen) :
    Option PresentEvidence → Prop
  | none => view = none
  | some evidence => ∃ seen, view = some seen ∧ Exact sha256 device maxBytes evidence seen

/-- Nothing is there, or a file that can be read. -/
def Legible (device maxBytes : Nat) (view : Option Seen) : Prop :=
  ∀ seen, view = some seen → seen.File device ∧ seen.links = 1 ∧ Fits maxBytes seen

theorem optional_retrieves {evidence : Io PresentEvidence} {device : Nat} {clear : Prop}
    (answers : evidence.run.Learns (fsMachine host weather) known
      (Answers weather (fun evidence => ∃ seen, view = some seen ∧ seen.File device ∧
        seen.links = 1 ∧ Fits maxBytes seen ∧ evidence = seen.evidence sha256) clear (view = none)))
    (denies : view = none → evidence.run.Learns (fsMachine host weather) known (Denies weather))
    (clears : Legible device maxBytes view → view ≠ none → clear) :
    (ControlDir.optionalEvidence evidence).run.Learns (fsMachine host weather) known
      (Answers weather (Retrieves sha256 device maxBytes view) (Legible device maxBytes view)
        False) := by
  refine (optionalEvidence_learns answers denies).mono fun result answered => ?_
  refine answered.mono (fun found good => ?_) (fun legible => ?_) id
  · cases found with
    | none => exact good
    | some evidence =>
        obtain ⟨seen, shows, file, links, fits, rfl⟩ := good
        exact ⟨seen, shows, file, links, fits, rfl⟩
  · by_cases absent : view = none
    · exact .inr absent
    · exact .inl (clears legible absent)

theorem adjacent_retrieves (valid : validateArtifactName name = .ok ()) :
    (ControlDir.optionalEvidence (target.artifactEvidence sha256 name maxBytes)).run.Learns
      (fsMachine host weather) (fun here => here = world)
      (Answers weather (Retrieves sha256 target.rootDevice maxBytes
        (world.look (target.artifact host name)))
        (Legible target.rootDevice maxBytes (world.look (target.artifact host name))) False) := by
  refine optional_retrieves (TargetAccess.artifactEvidence_learns sha256 maxBytes
    (TargetAccess.here_look _)) (fun absent => ?_) fun legible there => ?_
  · exact artifactEvidence_denies valid fun here same => same ▸ absent
  · obtain ⟨seen, shows⟩ := Option.ne_none_iff_exists'.mp there
    exact ⟨valid, seen, shows, legible seen shows⟩

theorem retained_retrieves (valid : validateArtifactName name = .ok ()) :
    (ControlDir.optionalEvidence (control.backupEvidence sha256 name maxBytes)).run.Learns
      (fsMachine host weather) (fun here => here = world)
      (Answers weather (Retrieves sha256 control.device maxBytes
        (world.look (host.slot control.dir name)))
        (Legible control.device maxBytes (world.look (host.slot control.dir name))) False) := by
  refine optional_retrieves (ControlDir.backupEvidenceWithLinks_learns sha256 maxBytes 1
    (TargetAccess.here_look _)) (fun absent => ?_) fun legible there => ?_
  · exact backupEvidence_denies valid fun here same => same ▸ absent
  · obtain ⟨seen, shows⟩ := Option.ne_none_iff_exists'.mp there
    exact ⟨valid, seen, shows, legible seen shows⟩

/-! ### The move -/

theorem exec_move {seen : Seen} (file : seen.inode.kind = .file) (single : seen.links = 1)
    (beside : world.look (target.artifact host name) = some seen)
    (inside : world.look (host.slot control.dir name) = none)
    (near : seen.inode.device = (world.inodes control.dir).device) :
    (FsCall.rename target.parent name control.dir name).exec host world =
      (.ok (), world.move (target.artifact host name) (host.slot control.dir name) seen.ino) := by
  refine TargetAccess.exec_rename beside file near single ?_ ?_
  · intro same
    rw [same] at inside
    cases beside.symm.trans inside
  · intro there impossible
    rw [inside] at impossible
    cases impossible

theorem exec_move_far {seen : Seen} (file : seen.inode.kind = .file)
    (beside : world.look (target.artifact host name) = some seen)
    (far : seen.inode.device ≠ (world.inodes control.dir).device) :
    (FsCall.rename target.parent name control.dir name).exec host world =
      (.error .crossesDevices, world) := by
  have regular : seen.inode.kind ≠ .directory := by
    rw [file]
    simp
  simp only [FsCall.exec, FsCall.execRename]
  rw [show world.look (host.slot target.parent name) = some seen from beside]
  dsimp only
  rw [if_neg regular]
  exact if_pos far

/-- What there must be for the mover to succeed. -/
structure Relocatable (host : Host) (world : World) (control : ControlDir) (target : TargetAccess)
    (name : String) (sha256 : Bytes → Sha256Hash) (maxBytes : Nat)
    (expected : PresentEvidence) : Prop where
  near : target.rootDevice = control.device
  housed : (world.inodes control.dir).device = control.device
  lies : ∃ seen, Exact sha256 control.device maxBytes expected seen ∧
    Lies world (target.artifact host name) (host.slot control.dir name) seen

theorem retainBackupFrom_meets {guard : {ρ : Type} → FsOp ρ → World → Prop}
    {post : Except IoError Unit → World → Prop} (valid : validateArtifactName name = .ok ())
    (admits : (fsMachine host weather).Admits guard world)
    (stuck : ∀ error,
      (Relocatable host world control target name sha256 maxBytes expected → weather.fails) →
      post (.error error) world)
    (stays : ∀ seen, Exact sha256 control.device maxBytes expected seen →
      world.look (target.artifact host name) = none →
      world.look (host.slot control.dir name) = some seen → post (.ok ()) world)
    (moves : ∀ seen, Exact sha256 control.device maxBytes expected seen →
      world.look (target.artifact host name) = some seen →
      world.look (host.slot control.dir name) = none →
      guard (.io (.rename target.parent name control.dir name)) world ∧
        (fsMachine host weather).Admits guard (world.move (target.artifact host name)
          (host.slot control.dir name) seen.ino) ∧
        post (.ok ()) (world.move (target.artifact host name)
          (host.slot control.dir name) seen.ino) ∧
        (weather.fails → ∀ error, post (.error error) (world.move (target.artifact host name)
          (host.slot control.dir name) seen.ino))) :
    (control.retainBackupFrom sha256 target name expected maxBytes).run.Meets
      (fsMachine host weather) guard post world := by
  unfold ControlDir.retainBackupFrom
  by_cases near : target.rootDevice = control.device
  swap
  · rw [if_pos near]
    exact stuck _ fun ready => absurd ready.near near
  rw [if_neg (not_not_intro near)]
  refine meets_reader (adjacent_retrieves valid) admits (fun adjacent beside => ?_)
    fun error cause => stuck error fun ready => cause ?_
  swap
  · obtain ⟨seen, exact_, lies⟩ := ready.lies
    intro found shows
    rcases lies with ⟨there, _⟩ | ⟨absent, _⟩
    · cases there.symm.trans shows
      exact ⟨near ▸ exact_.file, exact_.links, exact_.fits⟩
    · cases absent.symm.trans shows
  refine meets_reader (retained_retrieves valid) admits (fun retained inside => ?_)
    fun error cause => stuck error fun ready => cause ?_
  swap
  · obtain ⟨seen, exact_, lies⟩ := ready.lies
    intro found shows
    rcases lies with ⟨_, absent⟩ | ⟨_, there⟩
    · cases absent.symm.trans shows
    · cases there.symm.trans shows
      exact ⟨exact_.file, exact_.links, exact_.fits⟩
  cases adjacent with
  | none =>
      cases retained with
      | none =>
          refine stuck _ fun ready => ?_
          obtain ⟨seen, _, ⟨there, _⟩ | ⟨_, there⟩⟩ := ready.lies
          · cases beside.symm.trans there
          · cases inside.symm.trans there
      | some actual =>
          obtain ⟨seen, shows, found⟩ := inside
          by_cases same : actual = expected
          · subst same
            simp only [if_pos]
            exact stays seen found beside shows
          · simp only [if_neg same]
            refine stuck _ fun ready => ?_
            obtain ⟨other, exact_, ⟨_, absent⟩ | ⟨_, there⟩⟩ := ready.lies
            · cases absent.symm.trans shows
            · cases there.symm.trans shows
              exact absurd (found.same.symm.trans exact_.same) same
  | some actual =>
      obtain ⟨seen, shows, found⟩ := beside
      cases retained with
      | some other =>
          obtain ⟨there, shown, _⟩ := inside
          refine stuck _ fun ready => ?_
          obtain ⟨_, _, ⟨_, absent⟩ | ⟨absent, _⟩⟩ := ready.lies
          · cases absent.symm.trans shown
          · cases absent.symm.trans shows
      | none =>
          by_cases same : actual = expected
          swap
          · simp only [if_neg same]
            refine stuck _ fun ready => ?_
            obtain ⟨other, exact_, ⟨there, _⟩ | ⟨absent, _⟩⟩ := ready.lies
            · cases there.symm.trans shows
              exact absurd (found.same.symm.trans exact_.same) same
            · cases absent.symm.trans shows
          subst same
          simp only [if_pos]
          rw [near] at found
          have here : world.look (host.slot control.dir name) = none := inside
          obtain ⟨guarded, admitted, moved, failed⟩ := moves seen found shows here
          by_cases housed : seen.inode.device = (world.inodes control.dir).device
          swap
          · have executed := exec_move_far found.file.1 shows housed
            have unhoused : ∀ error, post (.error error) world := fun error =>
              stuck error fun ready => absurd (found.file.2.trans ready.housed.symm) housed
            refine meets_call (fun _ => id) guarded ?_ fun _ error => ⟨unhoused error, ?_⟩
            · rw [executed]
              exact unhoused _
            · rw [executed]
              exact unhoused error
          have executed := exec_move found.file.1 found.links shows here housed
          have different : host.slot control.dir name ≠ target.artifact host name := by
            intro same
            rw [same] at here
            cases shows.symm.trans here
          have arrived : (world.move (target.artifact host name) (host.slot control.dir name)
              seen.ino).look (host.slot control.dir name) = some seen := by
            refine World.look_move_self different shows fun there also => ?_
            cases here.symm.trans also
          refine meets_call (fun _ => id) guarded ?_ fun fails error =>
            ⟨stuck error fun _ => fails, ?_⟩
          swap
          · rw [executed]
            exact failed fails error
          rw [executed]
          refine meets_reader TargetAccess.syncParent_learns admitted (fun _ _ => ?_)
            fun error cause => failed (cause trivial) error
          have synced : control.sync.run.Learns (fsMachine host weather)
              (fun later => later = world.move (target.artifact host name)
                (host.slot control.dir name) seen.ino)
              (Answers weather (fun _ => True) True False) :=
            learns_perform (quiet_syncDir control.dir) id (fun _ _ => trivial)
              fun fails _ _ _ absent => answers_fault fails fun kind => absent kind trivial
          refine meets_reader synced admitted (fun _ _ => ?_)
            fun error cause => failed (cause trivial) error
          refine meets_reader (ControlDir.backupEvidenceWithLinks_learns sha256 maxBytes 1
            (TargetAccess.here_look _)) admitted (fun evidence good => ?_)
            fun error cause => failed (cause ⟨valid, seen, arrived, found.file, found.links,
              found.fits⟩) error
          obtain ⟨other, shown, _, _, _, rfl⟩ := good
          cases arrived.symm.trans shown
          rw [if_neg (not_not_intro found.same)]
          exact moved

end

/-! ### Moves and walks -/

/-- Real directories lead from the root along all segments but the last. -/
def Walks (host : Host) (world : World) (root : FsRoot) (path : String) (parent : Ino) : Prop :=
  ∃ entered, Enters host world root.dir (splitPath path).dropLast entered ∧
    (∀ seen ∈ entered, seen.inode.kind = .directory) ∧ parent = lastDir root.dir entered

/-- What moves into the state directory leave as it is: files, directories and
what the state directory has. Elsewhere entries only go. -/
structure Relocated (control : ControlDir) (start world : World) : Prop where
  inodes : world.inodes = start.inodes
  directories : ∀ slot seen, seen.inode.kind = .directory →
    (world.look slot = some seen ↔ start.look slot = some seen)
  elsewhere : ∀ slot, world.look slot = start.look slot ∨ world.look slot = none ∨
    (slot.dir = control.dir ∧ ∃ seen, world.look slot = some seen ∧ seen.links = 1)
  inside : ∀ slot seen, slot.dir = control.dir → start.look slot = some seen →
    world.look slot = some seen

section

variable {T : Type} {crates : Crates T} {host : Host} {weather : Weather} {root : FsRoot}
  {control : ControlDir} {start middle world : World} {path : String} {parent : Ino}

theorem Enters.unique {dir : Ino} {segments : List String} {entered other : List Seen}
    (one : Enters host world dir segments entered)
    (two : Enters host world dir segments other) : entered = other := by
  induction segments generalizing dir entered other with
  | nil =>
      cases entered with
      | cons seen further => exact one.elim
      | nil =>
          cases other with
          | cons seen further => exact two.elim
          | nil => rfl
  | cons segment rest ih =>
      cases entered with
      | nil => exact one.elim
      | cons seen further =>
          cases other with
          | nil => exact two.elim
          | cons there beyond =>
              cases one.1.symm.trans two.1
              rw [ih one.2 two.2]

theorem Walks.unique {other : Ino} (one : Walks host world root path parent)
    (two : Walks host world root path other) : parent = other := by
  obtain ⟨entered, steps, _, rfl⟩ := one
  obtain ⟨beyond, also, _, rfl⟩ := two
  rw [steps.unique also]

theorem Confined.walks {access : TargetAccess} {entered : List Seen}
    (confined : Confined crates host world root path access entered) :
    Walks host world root path access.parent :=
  ⟨entered, confined.steps, fun seen among => (confined.directories seen among).1,
    confined.parent⟩

theorem Enters.transfer {dir : Ino} {segments : List String} {entered : List Seen}
    (same : ∀ slot seen, seen.inode.kind = .directory → start.look slot = some seen →
      world.look slot = some seen)
    (steps : Enters host start dir segments entered)
    (directories : ∀ seen ∈ entered, seen.inode.kind = .directory) :
    Enters host world dir segments entered := by
  induction segments generalizing dir entered with
  | nil =>
      cases entered with
      | nil => trivial
      | cons seen further => exact steps.elim
  | cons segment rest ih =>
      cases entered with
      | nil => exact steps.elim
      | cons seen further =>
          rw [List.forall_mem_cons] at directories
          exact ⟨same _ seen directories.1 steps.1, ih steps.2 directories.2⟩

namespace Relocated

theorem refl (control : ControlDir) (world : World) : Relocated control world world :=
  ⟨rfl, fun _ _ _ => Iff.rfl, fun _ => .inl rfl, fun _ _ _ shows => shows⟩

theorem trans (first : Relocated control start middle) (second : Relocated control middle world) :
    Relocated control start world where
  inodes := second.inodes.trans first.inodes
  directories := fun slot seen kind =>
    (second.directories slot seen kind).trans (first.directories slot seen kind)
  elsewhere := by
    intro slot
    rcases second.elsewhere slot with same | gone | arrived
    · rw [same]
      exact first.elsewhere slot
    · exact .inr (.inl gone)
    · exact .inr (.inr arrived)
  inside := fun slot seen state shows =>
    second.inside slot seen state (first.inside slot seen state shows)

theorem walks_iff (relocated : Relocated control start world) :
    Walks host world root path parent ↔ Walks host start root path parent := by
  constructor
  · rintro ⟨entered, steps, directories, same⟩
    exact ⟨entered, steps.transfer (fun slot seen kind shows =>
      (relocated.directories slot seen kind).mp shows) directories, directories, same⟩
  · rintro ⟨entered, steps, directories, same⟩
    exact ⟨entered, steps.transfer (fun slot seen kind shows =>
      (relocated.directories slot seen kind).mpr shows) directories, directories, same⟩

/-- A walk that does not end in the state directory is as good as before. -/
theorem confined {access : TargetAccess} {entered : List Seen}
    (relocated : Relocated control start world)
    (confined : Confined crates host start root path access entered)
    (outside : access.parent ≠ control.dir) :
    Confined crates host world root path access entered where
  spelling := confined.spelling
  steps := confined.steps.transfer (fun slot seen kind shows =>
    (relocated.directories slot seen kind).mpr shows)
    fun seen among => (confined.directories seen among).1
  name := confined.name
  parent := confined.parent
  directories := confined.directories
  clear := by
    intro reserved entry seen among same
    obtain ⟨name, listed, shows⟩ := entry
    have directory := (confined.directories seen among).1
    obtain ⟨slot, entry⟩ := confined.steps.shown seen among
    have shown := (relocated.directories slot seen directory).mpr entry
    have ino : seen.ino = reserved.ino := congrArg FileIdentity.inode same
    have one : seen = reserved := by
      rw [← seen_of_look shown, ← seen_of_look shows, ino]
    subst one
    exact confined.clear seen ⟨name, listed, (relocated.directories _ seen directory).mp shows⟩
      seen among rfl
  final := by
    intro reserved entry seen shows same
    obtain ⟨name, listed, shown⟩ := entry
    have ino : seen.ino = reserved.ino := congrArg FileIdentity.inode same
    have before : start.look (access.slot host) = some seen := by
      rcases relocated.elsewhere (access.slot host) with kept | gone | arrived
      · exact kept.symm.trans shows
      · rw [gone] at shows
        cases shows
      · exact absurd arrived.1 outside
    rcases relocated.elsewhere (host.slot root.dir name) with kept | gone | arrived
    · exact confined.final reserved ⟨name, listed, kept.symm.trans shown⟩ seen before same
    · rw [gone] at shown
      cases shown
    · obtain ⟨state, other, also, single⟩ := arrived
      cases also.symm.trans shown
      have one := World.only_name also single shows ino
      rw [← one] at state
      exact outside state

end Relocated

/-- A file that moves into the state directory under its own name. -/
theorem relocated_move {name : String} {seen : Seen} (own : ownName name = true)
    (file : seen.inode.kind = .file) (single : seen.links = 1)
    (beside : world.look (host.slot parent name) = some seen)
    (inside : world.look (host.slot control.dir name) = none) :
    Relocated control world
        (world.move (host.slot parent name) (host.slot control.dir name) seen.ino) ∧
      (world.move (host.slot parent name) (host.slot control.dir name) seen.ino).look
        (host.slot parent name) = none ∧
      (world.move (host.slot parent name) (host.slot control.dir name) seen.ino).look
        (host.slot control.dir name) = some seen ∧
      ∀ slot : Slot, slot.name ≠ name →
        (world.move (host.slot parent name) (host.slot control.dir name) seen.ino).look slot =
          world.look slot := by
  simp only [slot_of_own own] at beside inside ⊢
  have different : (⟨control.dir, name⟩ : Slot) ≠ ⟨parent, name⟩ := by
    intro same
    rw [same] at inside
    cases beside.symm.trans inside
  have outside : parent ≠ control.dir := by
    rintro rfl
    exact different rfl
  have gone : (world.move ⟨parent, name⟩ ⟨control.dir, name⟩ seen.ino).look ⟨parent, name⟩ =
      none := World.look_move_source different
  have arrived : (world.move ⟨parent, name⟩ ⟨control.dir, name⟩ seen.ino).look
      ⟨control.dir, name⟩ = some seen := by
    refine World.look_move_self different beside fun there also => ?_
    cases inside.symm.trans also
  have others : ∀ slot : Slot, slot ≠ ⟨parent, name⟩ → slot ≠ ⟨control.dir, name⟩ →
      (world.move ⟨parent, name⟩ ⟨control.dir, name⟩ seen.ino).look slot = world.look slot := by
    intro slot apart away
    refine World.look_move_of_single different beside (fun there also => ?_) apart away
    cases inside.symm.trans also
  refine ⟨⟨rfl, ?_, ?_, ?_⟩, gone, arrived, ?_⟩
  · intro slot there kind
    have regular : seen ≠ there := by
      rintro rfl
      rw [file] at kind
      cases kind
    by_cases first : slot = ⟨parent, name⟩
    · subst first
      rw [gone, beside]
      exact ⟨nofun, fun same => absurd (Option.some.inj same) regular⟩
    · by_cases second : slot = ⟨control.dir, name⟩
      · subst second
        rw [arrived, inside]
        exact ⟨fun same => absurd (Option.some.inj same) regular, nofun⟩
      · rw [others slot first second]
  · intro slot
    by_cases first : slot = ⟨parent, name⟩
    · subst first
      exact .inr (.inl gone)
    · by_cases second : slot = ⟨control.dir, name⟩
      · subst second
        exact .inr (.inr ⟨rfl, seen, arrived, single⟩)
      · exact .inl (others slot first second)
  · intro slot there state shows
    have first : slot ≠ ⟨parent, name⟩ := by
      rintro rfl
      exact outside state
    have second : slot ≠ ⟨control.dir, name⟩ := by
      rintro rfl
      cases inside.symm.trans shows
    rw [others slot first second]
    exact shows
  · intro slot other
    refine others slot ?_ ?_
    · rintro rfl
      exact other rfl
    · rintro rfl
      exact other rfl

/-! ### When a walk succeeds -/

/-- A value that is good, or an error that needs a failing call. -/
def Sure {α : Type} (weather : Weather) (good : α → Prop) : Except IoError α → Prop
  | .ok value => good value
  | .error _ => weather.fails

section

variable {α β τ : Type} {known : World → Prop} {good : α → Prop} {better : β → Prop}

theorem sure_bind {program : Io α} {next : α → Io β}
    (first : program.run.Learns (fsMachine host weather) known (Sure weather good))
    (second : ∀ value, good value →
      (next value).run.Learns (fsMachine host weather) known (Sure weather better)) :
    (program >>= next).run.Learns (fsMachine host weather) known (Sure weather better) := by
  rw [Task.learns_except_bind]
  refine first.mono fun result sure => ?_
  cases result with
  | ok value => exact second value sure
  | error error => exact sure

theorem sure_pure {value : α} (holds : good value) :
    (pure value : Io α).run.Learns (fsMachine host weather) known (Sure weather good) := holds

theorem sure_call {call : FsCall τ} {good : τ → Prop}
    (quiet : (fsMachine host weather).Quiet (.io call)) (keeps : ¬ call.isRemoval)
    (answer : ∀ here, known here → ∃ value, (call.exec host here).1 = .ok value ∧ good value) :
    (perform call).run.Learns (fsMachine host weather) known (Sure weather good) := by
  refine learns_perform quiet keeps (fun here knows => ?_) fun fails _ _ _ _ => fails
  obtain ⟨value, executed, holds⟩ := answer here knows
  rw [executed]
  exact holds

end

theorem sure_symlinkMetadata {dir : Ino} {name : String} {seen : Seen}
    (shows : world.look (host.slot dir name) = some seen) :
    (perform (.symlinkMetadata dir name)).run.Learns (fsMachine host weather)
      (fun here => here = world) (Sure weather fun metadata => metadata = seen.metadata) := by
  refine sure_call (quiet_symlinkMetadata dir name) id ?_
  rintro here rfl
  refine ⟨_, ?_, rfl⟩
  simp only [FsCall.exec, shows]

theorem sure_dirMetadata (dir : Ino) :
    (perform (.dirMetadata dir)).run.Learns (fsMachine host weather) (fun here => here = world)
      (Sure weather fun metadata => metadata = (world.seen dir).metadata) := by
  refine sure_call (quiet_dirMetadata dir) id ?_
  rintro here rfl
  exact ⟨_, rfl, rfl⟩

theorem reservedRootIdentity_sure (name : String) :
    (reservedRootIdentity root name).run.Learns (fsMachine host weather)
      (fun here => here = world) (Sure weather fun found =>
        found = (world.look (host.slot root.dir name)).map Seen.identity) := by
  unfold reservedRootIdentity
  refine learns_attempt_symlinkMetadata (TargetAccess.here_look _) (fun seen shows => ?_)
    (fun error absent missing => ?_) fun fails error there => ?_
  · rw [shows]
    exact sure_pure rfl
  · simp only [if_pos missing]
    rw [absent]
    exact sure_pure rfl
  · simp only [if_neg there]
    exact learns_throw _ fails

theorem enterSegment_sure {dir : Ino} {segment : String} {seen : Seen}
    (shows : world.look (host.slot dir segment) = some seen)
    (directory : seen.inode.kind = .directory) (near : seen.inode.device = root.device)
    (clear : ∀ reserved, ReservedEntry host world root reserved →
      seen.identity ≠ reserved.identity) :
    (enterSegment root.device (reservedRoots.map fun name =>
      (world.look (host.slot root.dir name)).map Seen.identity) dir segment).run.Learns
      (fsMachine host weather) (fun here => here = world)
      (Sure weather fun next => next = seen.ino) := by
  have plain : isLinkOrReparse seen.metadata ≠ true := by
    rw [Ne, isLinkOrReparse_metadata, directory]
    exact FileKind.noConfusion
  unfold enterSegment
  refine sure_bind (sure_symlinkMetadata shows) fun metadata same => ?_
  subst same
  rw [if_neg plain]
  have opened : (openSegment dir segment).run.Learns (fsMachine host weather)
      (fun here => here = world) (Sure weather fun next => next = seen.ino) := by
    unfold openSegment
    refine learns_attempt (learns_perform (quiet_openDir dir segment) id ?_ ?_)
    · rintro here rfl
      simp only [FsCall.exec, shows, directory]
      exact sure_pure rfl
    · intro fails here _ error _
      refine learns_attempt (learns_perform (quiet_symlinkMetadata dir segment) id ?_ ?_)
      · intro there _
        cases ((FsCall.symlinkMetadata dir segment).exec host there).1 with
        | ok metadata => exact learns_throw _ fails
        | error other => exact learns_throw _ fails
      · intro _ there _ other _
        exact learns_throw _ fails
  refine sure_bind opened fun next same => ?_
  subst same
  refine sure_bind (sure_dirMetadata seen.ino) fun metadata same => ?_
  rw [seen_of_look shows] at same
  subst same
  have close : ¬ seen.metadata.device ≠ root.device := not_not_intro near
  rw [if_neg plain]
  dsimp only
  rw [if_neg close]
  have passes : rejectReservedIdentity seen.metadata (reservedRoots.map fun name =>
      (world.look (host.slot root.dir name)).map Seen.identity) = .ok () := by
    unfold rejectReservedIdentity
    rw [if_neg]
    rw [List.contains_iff_mem, List.mem_map]
    rintro ⟨name, listed, found⟩
    obtain ⟨reserved, shown, same⟩ := Option.map_eq_some_iff.mp found
    exact clear reserved ⟨name, listed, shown⟩ same.symm
  rw [passes]
  exact sure_pure rfl

theorem descend_sure {dir : Ino} {segments : List String} {entered : List Seen}
    (steps : Enters host world dir segments.dropLast entered)
    (directories : ∀ seen ∈ entered, seen.inode.kind = .directory ∧
      seen.inode.device = root.device)
    (clear : ∀ reserved, ReservedEntry host world root reserved →
      ∀ seen ∈ entered, seen.identity ≠ reserved.identity) :
    (descend root.device (reservedRoots.map fun name =>
      (world.look (host.slot root.dir name)).map Seen.identity) dir segments).run.Learns
      (fsMachine host weather) (fun here => here = world)
      (Sure weather fun found => found = (lastDir dir entered, segments.getLast?)) := by
  induction segments using List.twoStepInduction generalizing dir entered with
  | nil =>
      cases entered with
      | nil => exact sure_pure rfl
      | cons seen further => exact steps.elim
  | singleton name =>
      cases entered with
      | nil => exact sure_pure rfl
      | cons seen further => exact steps.elim
  | cons_cons segment next rest _ ih =>
      cases entered with
      | nil => exact steps.elim
      | cons seen further =>
          obtain ⟨shows, later⟩ := steps
          rw [List.forall_mem_cons] at directories
          unfold descend
          refine sure_bind (enterSegment_sure shows directories.1.1 directories.1.2
            fun reserved entry => clear reserved entry seen List.mem_cons_self)
            fun entered same => ?_
          subst same
          rw [lastDir_cons, List.getLast?_cons_cons]
          exact ih next later directories.2 fun reserved entry there among =>
            clear reserved entry there (List.mem_cons_of_mem _ among)

theorem openTarget_sure (opens : Openable crates host world root path parent) :
    (root.openTarget crates path).run.Learns (fsMachine host weather) (fun here => here = world)
      (Sure weather fun _ => True) := by
  obtain ⟨access, entered, confined, rfl⟩ := opens.walk
  unfold FsRoot.openTarget TargetAccess.open
  rw [opens.valid]
  have spelled : ¬ reservedRoots.contains
      ((splitPath (crates.portablePathKey path)).headD "") = true := by
    rw [List.contains_iff_mem]
    exact confined.spelling
  refine sure_bind (sure_pure trivial : (liftExcept (.ok ())).run.Learns _ _
    (Sure weather fun _ => True)) fun _ _ => ?_
  dsimp only
  rw [if_neg spelled]
  have reserved : (reservedRootIdentities root).run.Learns (fsMachine host weather)
      (fun here => here = world) (Sure weather fun found => found = reservedRoots.map fun name =>
        (world.look (host.slot root.dir name)).map Seen.identity) := by
    unfold reservedRootIdentities
    refine sure_bind (reservedRootIdentity_sure ".git") fun git first => ?_
    refine sure_bind (reservedRootIdentity_sure ".weavatrix") fun own second => ?_
    refine sure_pure ?_
    rw [first, second]
    rfl
  refine sure_bind reserved fun found same => ?_
  subst same
  refine sure_bind (sure_call (quiet_cloneHandle _) id fun _ _ => ⟨(), rfl, trivial⟩ :
    (perform (.cloneHandle root.dir)).run.Learns _ _ (Sure weather fun _ => True)) fun _ _ => ?_
  refine sure_bind (descend_sure confined.steps confined.directories confined.clear)
    fun found same => ?_
  subst same
  dsimp only
  rw [← confined.parent, confined.name]
  refine sure_bind (sure_dirMetadata _) fun metadata same => ?_
  subst same
  have safe : ¬ (isLinkOrReparse (world.seen access.parent).metadata ||
      decide ((world.seen access.parent).metadata.device ≠ root.device)) = true := by
    rw [Bool.or_eq_true, isLinkOrReparse_metadata, decide_eq_true_eq, not_or, not_not]
    exact ⟨opens.real, opens.near⟩
  rw [if_neg safe]
  refine sure_bind (sure_pure rfl : (liftExcept (Except.ok access.name)).run.Learns _ _
    (Sure weather fun name => name = access.name)) fun name same => ?_
  subst same
  refine learns_attempt_symlinkMetadata (TargetAccess.here_look _) (fun seen shows => ?_)
    (fun error absent missing => ?_) fun fails error there => ?_
  · have passes : rejectReservedIdentity seen.metadata (reservedRoots.map fun name =>
        (world.look (host.slot root.dir name)).map Seen.identity) = .ok () := by
      unfold rejectReservedIdentity
      rw [if_neg]
      rw [List.contains_iff_mem, List.mem_map]
      rintro ⟨name, listed, found⟩
      obtain ⟨reserved, shown, same⟩ := Option.map_eq_some_iff.mp found
      exact confined.final reserved ⟨name, listed, shown⟩ seen shows same.symm
    simp only [passes]
    exact sure_pure trivial
  · simp only [if_pos missing]
    exact sure_pure trivial
  · simp only [if_neg there]
    exact learns_throw_bind _ fails

theorem Openable.walks (opens : Openable crates host world root path parent) :
    Walks host world root path parent := by
  obtain ⟨access, entered, confined, rfl⟩ := opens.walk
  exact confined.walks

theorem Relocated.openable (relocated : Relocated control start world)
    (opens : Openable crates host start root path parent) (outside : parent ≠ control.dir) :
    Openable crates host world root path parent := by
  obtain ⟨access, entered, confined, rfl⟩ := opens.walk
  refine ⟨opens.valid, ⟨access, entered, relocated.confined confined outside, rfl⟩, ?_, ?_⟩
  · rw [relocated.inodes]
    exact opens.real
  · rw [relocated.inodes]
    exact opens.near

end

end Worktree
