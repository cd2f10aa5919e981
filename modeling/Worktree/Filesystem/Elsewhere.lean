import Worktree.Filesystem.Changing
import Worktree.Filesystem.Aside
/-
Where the changing operations leave everything as it is, and what they achieve
when they end well.

A change is described by the entries it is about: every other entry shows what
it showed. No operation moves a directory to another device.
-/

namespace Worktree

open CrashLogic

/-- Only the entries in the set show something else, and no inode changed its device. -/
structure Elsewhere (own : Slot → Prop) (start finish : World) : Prop where
  looks : ∀ slot, ¬ own slot → finish.look slot = start.look slot
  devices : ∀ ino, (finish.inodes ino).device = (start.inodes ino).device

/-- The entry leads to this file, which has no other name. -/
def Alone (slot : Slot) (file : Ino) (world : World) : Prop :=
  ∃ seen, world.look slot = some seen ∧ seen.ino = file ∧ seen.links = 1

section

variable {own wider : Slot → Prop} {slot other : Slot} {file : Ino} {seen : Seen}
  {start middle finish : World}

namespace Elsewhere

theorem refl (own : Slot → Prop) (world : World) : Elsewhere own world world :=
  ⟨fun _ _ => rfl, fun _ => rfl⟩

theorem trans (first : Elsewhere own start middle) (second : Elsewhere own middle finish) :
    Elsewhere own start finish :=
  ⟨fun slot outside => (second.looks slot outside).trans (first.looks slot outside),
    fun ino => (second.devices ino).trans (first.devices ino)⟩

theorem mono (elsewhere : Elsewhere own start finish) (within : ∀ slot, own slot → wider slot) :
    Elsewhere wider start finish :=
  ⟨fun slot outside => elsewhere.looks slot fun inside => outside (within slot inside),
    elsewhere.devices⟩

/-! ### Single changes -/

theorem unlink (shows : start.look slot = some seen) (single : seen.links = 1) :
    Elsewhere (· = slot) start (start.unlink slot) :=
  ⟨fun _ different => World.look_unlink_of_single shows single different, fun _ => rfl⟩

theorem unlink_double (different : other ≠ slot) (shows : start.look slot = some seen)
    (also : start.look other = some seen) (double : seen.links = 2) :
    Elsewhere (fun third => third = slot ∨ third = other) start (start.unlink slot) := by
  refine ⟨fun third outside => ?_, fun _ => rfl⟩
  exact World.look_unlink_of_double different shows also double (fun same => outside (.inl same))
    fun same => outside (.inr same)

theorem link (absent : start.look other = none) (shows : start.look slot = some seen)
    (single : seen.links = 1) :
    Elsewhere (fun third => third = slot ∨ third = other) start (start.link other seen.ino) := by
  refine ⟨fun third outside => ?_, fun _ => rfl⟩
  exact World.look_link_of_single absent shows single (fun same => outside (.inl same))
    fun same => outside (.inr same)

theorem move (different : other ≠ slot) (shows : start.look slot = some seen)
    (alone : ∀ there, start.look other = some there → there.links = 1) :
    Elsewhere (fun third => third = slot ∨ third = other) start
      (start.move slot other seen.ino) := by
  refine ⟨fun third outside => ?_, fun _ => rfl⟩
  exact World.look_move_of_single different shows alone (fun same => outside (.inl same))
    fun same => outside (.inr same)

theorem setInode {inode : Inode} (alone : Alone slot file start)
    (device : inode.device = (start.inodes file).device) :
    Elsewhere (· = slot) start (start.setInode file inode) := by
  obtain ⟨there, shows, named, single⟩ := alone
  constructor
  · intro third different
    apply World.look_setInode_ne
    intro found also same
    exact different (World.only_name shows single also (same.trans named.symm))
  · intro ino
    by_cases same : ino = file
    · subst same
      simpa [World.setInode] using device
    · simp [World.setInode, Function.update_of_ne same]

end Elsewhere

theorem Alone.setInode {inode : Inode} (alone : Alone slot file start) :
    Alone slot file (start.setInode file inode) := by
  obtain ⟨there, shows, rfl, single⟩ := alone
  exact ⟨_, World.look_setInode_self shows, rfl, single⟩

theorem Alone.elsewhere (alone : Alone slot file start) (elsewhere : Elsewhere own start finish)
    (outside : ¬ own slot) : Alone slot file finish := by
  obtain ⟨there, shows, named, single⟩ := alone
  exact ⟨there, (elsewhere.looks slot outside).trans shows, named, single⟩

/-! ### Writing to a file -/

variable {host : Host} {weather : Weather}

theorem elsewhere_scribbles {ρ : Type} {op : FsOp ρ} {answer : ρ} (scribbles : Scribbles file op)
    (alone : Alone slot file start)
    (stepped : (fsMachine host weather).step op start answer finish) :
    Elsewhere (· = slot) start finish ∧ Alone slot file finish := by
  have still : Elsewhere (· = slot) start start ∧ Alone slot file start :=
    ⟨Elsewhere.refl _ _, alone⟩
  cases op with
  | unlock handle => exact scribbles.elim
  | refuseAppend =>
      obtain ⟨_, rfl⟩ := stepped
      exact still
  | io call =>
      cases call with
      | write handle bytes =>
          cases scribbles
          have changed : ∀ more, Elsewhere (· = slot) start (start.append file more) ∧
              Alone slot file (start.append file more) :=
            fun more => ⟨Elsewhere.setInode alone rfl, alone.setInode⟩
          rcases stepped with done | ⟨_, _, _, came, _⟩
          · cases done
            exact changed _
          · rcases came with rfl | ⟨rfl, _⟩ | ⟨count, rfl⟩
            · exact still
            · exact changed _
            · exact changed _
      | setPermissions handle mode =>
          cases scribbles
          have changed : Elsewhere (· = slot) start (start.chmod file mode) ∧
              Alone slot file (start.chmod file mode) :=
            ⟨Elsewhere.setInode alone rfl, alone.setInode⟩
          rcases stepped with done | ⟨_, _, _, came, _⟩
          · cases done
            exact changed
          · rcases came with rfl | ⟨rfl, _⟩ | torn
            · exact still
            · exact changed
            · exact torn.elim
      | _ => exact scribbles.elim

/-- A file that is removed is gone, unless the call fails. -/
theorem elsewhere_removeFile {dir : Ino} {name : String} {answer : Except IoError Unit}
    (alone : Alone (host.slot dir name) file start)
    (stepped : (fsMachine host weather).step (.io (.removeFile dir name)) start answer finish) :
    Elsewhere (· = host.slot dir name) start finish ∧
      (answer = .ok () → finish.look (host.slot dir name) = none) ∧
      ∀ error, answer = .error error → error.kind = .notFound →
        finish.look (host.slot dir name) = none ∨ weather.denies := by
  obtain ⟨seen, shows, _, single⟩ := alone
  have executed : Elsewhere (· = host.slot dir name) start
      ((FsCall.removeFile dir name).exec host start).2 ∧
      (((FsCall.removeFile dir name).exec host start).1 = .ok () →
        ((FsCall.removeFile dir name).exec host start).2.look (host.slot dir name) = none) ∧
      ∀ error, ((FsCall.removeFile dir name).exec host start).1 = .error error →
        error.kind ≠ .notFound := by
    simp only [FsCall.exec, shows]
    split
    · refine ⟨Elsewhere.refl _ _, (fun impossible => by cases impossible), fun error same => ?_⟩
      cases same
      decide
    · exact ⟨Elsewhere.unlink shows single, fun _ => World.look_unlink_self,
        fun _ impossible => by cases impossible⟩
  obtain ⟨elsewhere, gone, other⟩ := executed
  rcases stepped with done | ⟨_, error, rfl, came, denies⟩
  · rw [done] at elsewhere gone other
    exact ⟨elsewhere, gone, fun error same missing => absurd missing (other error same)⟩
  · refine ⟨?_, (fun impossible => by cases impossible), fun found same missing => ?_⟩
    · rcases came with rfl | ⟨rfl, _⟩ | torn
      · exact Elsewhere.refl _ _
      · exact elsewhere
      · exact torn.elim
    · cases same
      rcases denies missing with absent | ⟨denies, _⟩
      · exact .inl (by simpa [FsCall.present] using absent)
      · exact .inr denies

end

/-! ### Programs told by the entries they change -/

section

variable {α β ε ε' : Type} {host : Host} {weather : Weather} {own wider : Slot → Prop}
  {start : World}

/-- The program changes these entries only, and if it ends well this holds. -/
def Achieves (host : Host) (weather : Weather) (own : Slot → Prop)
    (program : ExceptT ε (Task FsOp) α) (start : World) (good : α → World → Prop) : Prop :=
  program.run.Meets (fsMachine host weather) (fun _ _ => True)
    (fun result finish => Elsewhere own start finish ∧
      ∀ value, result = .ok value → good value finish) start

theorem Achieves.mono {program : ExceptT ε (Task FsOp) α} {good good' : α → World → Prop}
    (achieves : Achieves host weather own program start good)
    (weaken : ∀ value finish, Elsewhere own start finish → good value finish →
      good' value finish) :
    Achieves host weather own program start good' :=
  Task.Meets.mono achieves fun _ finish ended =>
    ⟨ended.1, fun value same => weaken value finish ended.1 (ended.2 value same)⟩

theorem Achieves.within {program : ExceptT ε (Task FsOp) α} {good : α → World → Prop}
    (achieves : Achieves host weather own program start good)
    (within : ∀ slot, own slot → wider slot) : Achieves host weather wider program start good :=
  Task.Meets.mono achieves fun _ _ ended => ⟨ended.1.mono within, ended.2⟩

theorem achieves_pure {good : α → World → Prop} (value : α) (holds : good value start) :
    Achieves host weather own (pure value : ExceptT ε (Task FsOp) α) start good := by
  refine ⟨Elsewhere.refl _ _, fun found same => ?_⟩
  cases same
  exact holds

theorem achieves_throw {good : α → World → Prop} (error : ε) :
    Achieves host weather own (throw error : ExceptT ε (Task FsOp) α) start good :=
  ⟨Elsewhere.refl _ _, fun _ same => by cases same⟩

theorem Achieves.bind {program : ExceptT ε (Task FsOp) α} {next : α → ExceptT ε (Task FsOp) β}
    {middle : α → World → Prop} {good : β → World → Prop}
    (first : Achieves host weather own program start middle)
    (second : ∀ value here, Elsewhere own start here → middle value here →
      Achieves host weather own (next value) here good) :
    Achieves host weather own (program >>= next) start good := by
  unfold Achieves
  rw [Task.meets_except_bind]
  refine Task.Meets.mono first fun result here ended => ?_
  obtain ⟨elsewhere, holds⟩ := ended
  cases result with
  | ok found =>
      exact Task.Meets.mono (second found here elsewhere (holds found rfl)) fun _ _ last =>
        ⟨elsewhere.trans last.1, last.2⟩
  | error failure => exact ⟨elsewhere, fun _ same => by cases same⟩

theorem Achieves.adapt {change : ε → ε'} {program : ExceptT ε (Task FsOp) α}
    {good : α → World → Prop} (achieves : Achieves host weather own program start good) :
    Achieves host weather own (ExceptT.adapt change program) start good := by
  unfold Achieves
  rw [Task.meets_except_adapt]
  refine Task.Meets.mono achieves fun result _ ended => ⟨ended.1, fun value same => ?_⟩
  cases result with
  | ok found =>
      cases same
      exact ended.2 _ rfl
  | error failure => cases same

/-- A program that only looks. -/
theorem achieves_of_yields {program : ExceptT ε (Task FsOp) α} {good : α → World → Prop}
    (yields : Task.Yields (fsMachine host weather) (fun _ => False) (fun here => here = start)
      program fun value => good value start) :
    Achieves host weather own program start good := by
  refine Task.Meets.mono (meets_of_yields yields fun _ _ => trivial) fun result finish ended => ?_
  obtain ⟨rfl, holds⟩ := ended
  exact ⟨Elsewhere.refl _ _, holds⟩

end

/-! ### Operations on a slot and its artifacts -/

namespace TargetAccess

section

variable {host : Host} {weather : Weather} {world : World} {access : TargetAccess} {name : String}

/-- The target's entry and that of the artifact. -/
def Pair (host : Host) (access : TargetAccess) (name : String) (slot : Slot) : Prop :=
  slot = access.slot host ∨ slot = access.artifact host name

/-- An install that ends well leaves the artifact's file in the target's place. -/
theorem installAbsentFrom_achieves (valid : validateArtifactName name = .ok ())
    (housed : access.Housed world) (different : access.artifact host name ≠ access.slot host) :
    Achieves host weather (access.Pair host name) (access.installAbsentFrom name) world
      fun _ finish => ∃ seen, Installs host access name world seen ∧
        finish.look (access.slot host) = some seen ∧
        finish.look (access.artifact host name) = none := by
  have linked : ∀ seen, Installs host access name world seen →
      Elsewhere (access.Pair host name) world (world.link (access.slot host) seen.ino) :=
    fun seen installs => (Elsewhere.link installs.absent installs.shows installs.single).mono
      fun _ => Or.symm
  have unlinked : ∀ seen, Installs host access name world seen →
      Elsewhere (access.Pair host name) world
        ((world.link (access.slot host) seen.ino).unlink (access.artifact host name)) := by
    intro seen installs
    have twins := installs.twins
    exact (linked seen installs).trans ((Elsewhere.unlink_double (Ne.symm different)
      twins.artifact twins.target twins.double).mono fun _ => Or.symm)
  refine installAbsentFrom_meets valid housed different (fun _ _ => trivial)
    (fun error _ => ⟨Elsewhere.refl _ _, fun _ same => by cases same⟩)
    (fun seen installs => ?_) fun seen installs => ?_
  · exact ⟨trivial, fun _ _ => trivial, fun _ _ =>
      ⟨linked seen installs, fun _ same => by cases same⟩⟩
  · refine ⟨trivial, fun _ _ => trivial, fun _ => ⟨unlinked seen installs, fun _ _ => ?_⟩,
      fun _ _ => ⟨unlinked seen installs, fun _ same => by cases same⟩⟩
    have alone := (installs.twins.apart different).1
    refine ⟨seen, installs, alone.trans ?_, World.look_unlink_self⟩
    rw [← installs.single]

/-- A replacement that ends well leaves the artifact's file in the target's place. -/
theorem replaceFrom_achieves (valid : validateArtifactName name = .ok ())
    (housed : access.Housed world) (different : access.slot host ≠ access.artifact host name)
    (covers : ∀ there, world.look (access.slot host) = some there →
      there.inode.kind = .file ∧ there.links = 1) :
    Achieves host weather (access.Pair host name) (access.replaceFrom name) world
      fun _ finish => ∃ seen, Replaces host access name world seen ∧
        finish.look (access.slot host) = some seen ∧
        finish.look (access.artifact host name) = none := by
  have moved : ∀ seen, Replaces host access name world seen →
      Elsewhere (access.Pair host name) world
        (world.move (access.artifact host name) (access.slot host) seen.ino) :=
    fun seen replaces => (Elsewhere.move different replaces.shows
      fun there shows => (covers there shows).2).mono fun _ => Or.symm
  refine replaceFrom_meets valid housed different
    (fun there shows => by rw [(covers there shows).1]; simp) (fun _ _ => trivial)
    (fun error _ => ⟨Elsewhere.refl _ _, fun _ same => by cases same⟩) fun seen replaces => ?_
  refine ⟨trivial, ⟨moved seen replaces, fun _ _ => ⟨seen, replaces, ?_, ?_⟩⟩,
    fun _ _ => ⟨moved seen replaces, fun _ same => by cases same⟩⟩
  · apply World.look_move_self different replaces.shows
    intro there shows same
    exact different (World.only_name replaces.shows replaces.single shows same)
  · exact World.look_move_source different

/-- A removal that ends well leaves nothing in the target's place. -/
theorem removeExact_achieves (sha256 : Bytes → Sha256Hash) (expected : PresentEvidence)
    (maxBytes : Nat) :
    Achieves host weather (· = access.slot host) (access.removeExact sha256 expected maxBytes) world
      fun _ finish => finish.look (access.slot host) = none := by
  refine removeExact_meets (fun _ _ => trivial)
    (fun error _ => ⟨Elsewhere.refl _ _, fun _ same => by cases same⟩)
    fun seen shows plain _ => ?_
  have gone := Elsewhere.unlink shows plain.links
  exact ⟨trivial, fun _ _ => trivial, ⟨gone, fun _ _ => World.look_unlink_self⟩,
    fun _ _ => ⟨gone, fun _ same => by cases same⟩⟩

/-- A reversed install leaves nothing in the target's place. -/
theorem rollbackLinkedInstall_achieves (valid : validateArtifactName name = .ok ())
    (different : access.artifact host name ≠ access.slot host) :
    Achieves host weather (access.Pair host name) (access.rollbackLinkedInstall name) world
      fun _ finish => finish.look (access.slot host) = none := by
  refine rollbackLinkedInstall_meets valid different (fun _ _ => trivial)
    (fun error _ => ⟨Elsewhere.refl _ _, fun _ same => by cases same⟩) fun seen twins => ?_
  have gone : Elsewhere (access.Pair host name) world (world.unlink (access.slot host)) :=
    Elsewhere.unlink_double different twins.target twins.artifact twins.double
  exact ⟨trivial, fun _ _ => trivial, ⟨gone, fun _ _ => World.look_unlink_self⟩,
    fun _ _ => ⟨gone, fun _ same => by cases same⟩⟩

/-- An artifact that is removed is gone, and so is one that was not there. -/
theorem removeArtifact_achieves (valid : validateArtifactName name = .ok ()) :
    Achieves host weather (· = access.artifact host name) (access.removeArtifact name) world
      fun _ finish => finish.look (access.artifact host name) = none := by
  refine removeArtifact_meets valid (fun _ _ => trivial)
    (fun error _ => ⟨Elsewhere.refl _ _, fun _ same => by cases same⟩)
    (fun absent => ⟨Elsewhere.refl _ _, fun _ _ => absent⟩) fun seen shows _ single => ?_
  have gone := Elsewhere.unlink shows single
  exact ⟨trivial, fun _ _ => trivial, ⟨gone, fun _ _ => World.look_unlink_self⟩,
    fun _ _ => ⟨gone, fun _ same => by cases same⟩⟩

end

end TargetAccess

end Worktree
