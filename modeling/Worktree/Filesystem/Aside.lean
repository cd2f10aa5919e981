import Worktree.Filesystem.Calm
/-
Changes that stay inside a set of slots.

An entry outside the set leads where it led, to an inode with the content it
had, and a file that has only such a name keeps it as its only one. What changes
inside the set is the business of whoever owns it.
-/

namespace Worktree

open CrashLogic

/-- The entry leads where it led, and its inode is what it was. -/
structure Undisturbed (slot : Slot) (start finish : World) : Prop where
  entry : finish.table.lookup slot = start.table.lookup slot
  inode : ∀ ino, start.table.lookup slot = some ino → finish.inodes ino = start.inodes ino

/-- The file has this name and no other. -/
structure Sole (slot : Slot) (file : Ino) (world : World) : Prop where
  named : world.table.lookup slot = some file
  only : ∀ other, world.table.lookup other = some file → other = slot

/-- A regular file with this name only, and with this content. -/
structure Filled (slot : Slot) (file : Ino) (bytes : Bytes) (world : World) : Prop where
  sole : Sole slot file world
  regular : (world.inodes file).kind = .file
  content : (world.inodes file).bytes = bytes

/-- Only the entries in the set changed. -/
structure Aside (own : Slot → Prop) (start finish : World) : Prop where
  rest : ∀ slot, ¬ own slot → Undisturbed slot start finish
  sole : ∀ slot file, ¬ own slot → Sole slot file start → Sole slot file finish

variable {own wider : Slot → Prop} {slot other : Slot} {file : Ino} {start middle finish : World}

theorem Undisturbed.refl (slot : Slot) (world : World) : Undisturbed slot world world :=
  ⟨rfl, fun _ _ => rfl⟩

theorem Undisturbed.trans (first : Undisturbed slot start middle)
    (second : Undisturbed slot middle finish) : Undisturbed slot start finish := by
  refine ⟨second.entry.trans first.entry, fun ino named => ?_⟩
  rw [second.inode ino (first.entry.trans named), first.inode ino named]

namespace Aside

theorem refl (own : Slot → Prop) (world : World) : Aside own world world :=
  ⟨fun _ _ => Undisturbed.refl _ _, fun _ _ _ => id⟩

theorem trans (first : Aside own start middle) (second : Aside own middle finish) :
    Aside own start finish :=
  ⟨fun slot outside => (first.rest slot outside).trans (second.rest slot outside),
    fun slot file outside single =>
      second.sole slot file outside (first.sole slot file outside single)⟩

theorem mono (aside : Aside own start finish) (within : ∀ slot, own slot → wider slot) :
    Aside wider start finish :=
  ⟨fun slot outside => aside.rest slot fun inside => outside (within slot inside),
    fun slot file outside => aside.sole slot file fun inside => outside (within slot inside)⟩

theorem absent (aside : Aside own start finish) (outside : ¬ own slot)
    (gone : start.table.lookup slot = none) : finish.table.lookup slot = none :=
  (aside.rest slot outside).entry.trans gone

theorem filled {bytes : Bytes} (aside : Aside own start finish) (outside : ¬ own slot)
    (filled : Filled slot file bytes start) : Filled slot file bytes finish := by
  have same := (aside.rest slot outside).inode file filled.sole.named
  refine ⟨aside.sole slot file outside filled.sole, ?_, ?_⟩
  · rw [same]
    exact filled.regular
  · rw [same]
    exact filled.content

/-! ### Single changes -/

theorem make {inode : Inode} (absent : start.look slot = none) :
    Aside (· = slot) start (start.make slot inode) := by
  have entry : ∀ other, other ≠ slot →
      (start.make slot inode).table.lookup other = start.table.lookup other :=
    fun other different => AList.lookup_insert_ne different
  refine ⟨fun other outside => ⟨entry other outside, fun ino named => ?_⟩,
    fun other file outside single => ⟨(entry other outside).trans single.named, ?_⟩⟩
  · have foreign : ino ≠ start.fresh := fun same => start.fresh_unnamed other (same ▸ named)
    exact Function.update_of_ne foreign _ _
  · intro third named
    by_cases same : third = slot
    · subst same
      have fresh : (start.make third inode).table.lookup third = some start.fresh :=
        AList.lookup_insert start.table
      rw [fresh] at named
      cases named
      exact absurd single.named (start.fresh_unnamed other)
    · rw [entry third same] at named
      exact single.only third named

theorem unlink : Aside (· = slot) start (start.unlink slot) := by
  have entry : ∀ other, other ≠ slot →
      (start.unlink slot).table.lookup other = start.table.lookup other :=
    fun other different => AList.lookup_erase_ne different
  refine ⟨fun other outside => ⟨entry other outside, fun _ _ => rfl⟩,
    fun other file outside single => ⟨(entry other outside).trans single.named, ?_⟩⟩
  intro third named
  by_cases same : third = slot
  · subst same
    have gone : (start.unlink third).table.lookup third = none := AList.lookup_erase _ _
    rw [gone] at named
    cases named
  · rw [entry third same] at named
    exact single.only third named

/-- A change of a file that has one name. -/
theorem setInode {inode : Inode} (single : Sole slot file start) :
    Aside (· = slot) start (start.setInode file inode) := by
  refine ⟨fun other outside => ⟨rfl, fun ino named => ?_⟩, fun _ _ _ kept =>
    ⟨kept.named, kept.only⟩⟩
  have foreign : ino ≠ file := fun same => outside (single.only other (same ▸ named))
  exact Function.update_of_ne foreign _ _

end Aside

theorem Sole.setInode {inode : Inode} (single : Sole slot file start) :
    Sole slot file (start.setInode file inode) :=
  ⟨single.named, single.only⟩

theorem Sole.make {inode : Inode} : Sole slot start.fresh (start.make slot inode) := by
  refine ⟨AList.lookup_insert start.table, fun third named => ?_⟩
  by_contra different
  have entry : (start.make slot inode).table.lookup third = start.table.lookup third :=
    AList.lookup_insert_ne different
  rw [entry] at named
  exact start.fresh_unnamed third named

/-- A file that has one name has one link. -/
theorem Sole.shows (single : Sole slot file start) :
    start.look slot = some ⟨file, start.inodes file, 1⟩ := by
  rw [World.look_eq_some_iff]
  have counted : LinkTable.links start.table file = 1 :=
    LinkTable.links_eq_one _ _ _ single.named single.only
  exact ⟨single.named, congrArg (Seen.mk file (start.inodes file)) counted⟩

/-! ### Calls -/

section

variable {host : Host} {weather : Weather} {τ : Type}

/-- A call that fails has no effect, its whole effect, or a part of it. -/
theorem aside_fault {call : FsCall τ} {answer : Except IoError τ}
    (executed : Aside own start (call.exec host start).2)
    (torn : ∀ left, call.torn start left → Aside own start left)
    (failed : call.Fails host weather start answer finish) : Aside own start finish := by
  obtain ⟨_, _, _, came, _⟩ := failed
  rcases came with rfl | ⟨rfl, _⟩ | partly
  · exact Aside.refl own finish
  · exact executed
  · exact torn finish partly

theorem aside_createNew {dir : Ino} {name : String} {answer : Except IoError Ino}
    (stepped : (fsMachine host weather).step (.io (.openFile dir name .createNew)) start answer
      finish) :
    Aside (· = host.slot dir name) start finish ∧
      ∀ file, answer = .ok file → Filled (host.slot dir name) file [] finish := by
  cases found : start.look (host.slot dir name) with
  | some seen =>
      have executed : (FsCall.openFile dir name .createNew).exec host start =
          (.error .occupied, start) := by
        simp only [FsCall.exec, FsCall.execOpen, found]
      rcases stepped with done | failed
      · rw [executed] at done
        cases done
        exact ⟨Aside.refl _ _, fun file impossible => by cases impossible⟩
      · refine ⟨aside_fault ?_ (fun _ => False.elim) failed, ?_⟩
        · rw [executed]
          exact Aside.refl _ _
        · obtain ⟨_, _, rfl, _⟩ := failed
          exact fun file impossible => by cases impossible
  | none =>
      have executed : (FsCall.openFile dir name .createNew).exec host start =
          (.ok start.fresh, start.make (host.slot dir name)
            ⟨.file, (start.inodes dir).device, [], host.freshMode⟩) := by
        simp only [FsCall.exec, FsCall.execOpen, found]
        rfl
      rcases stepped with done | failed
      · rw [executed] at done
        cases done
        refine ⟨Aside.make found, fun file same => ?_⟩
        cases same
        have made : (start.make (host.slot dir name)
            ⟨.file, (start.inodes dir).device, [], host.freshMode⟩).inodes start.fresh =
              ⟨.file, (start.inodes dir).device, [], host.freshMode⟩ := Function.update_self _ _ _
        exact ⟨Sole.make, congrArg Inode.kind made, congrArg Inode.bytes made⟩
      · refine ⟨aside_fault ?_ (fun _ => False.elim) failed, ?_⟩
        · rw [executed]
          exact Aside.make found
        · obtain ⟨_, _, rfl, _⟩ := failed
          exact fun file impossible => by cases impossible

theorem aside_removeFile {dir : Ino} {name : String} {answer : Except IoError Unit}
    (stepped : (fsMachine host weather).step (.io (.removeFile dir name)) start answer finish) :
    Aside (· = host.slot dir name) start finish ∧
      (∀ slot, start.table.lookup slot = none → finish.table.lookup slot = none) ∧
      (answer = .ok () → finish.table.lookup (host.slot dir name) = none) := by
  have executed : Aside (· = host.slot dir name) start
      ((FsCall.removeFile dir name).exec host start).2 ∧
      (∀ slot, start.table.lookup slot = none →
        ((FsCall.removeFile dir name).exec host start).2.table.lookup slot = none) ∧
      (((FsCall.removeFile dir name).exec host start).1 = .ok () →
        ((FsCall.removeFile dir name).exec host start).2.table.lookup (host.slot dir name) =
          none) := by
    simp only [FsCall.exec]
    split
    · exact ⟨Aside.refl _ _, fun _ => id, fun impossible => by cases impossible⟩
    · split
      · exact ⟨Aside.refl _ _, fun _ => id, fun impossible => by cases impossible⟩
      · have gone : (start.unlink (host.slot dir name)).table.lookup (host.slot dir name) = none :=
          AList.lookup_erase _ _
        refine ⟨Aside.unlink, fun slot absent => ?_, fun _ => gone⟩
        by_cases same : slot = host.slot dir name
        · rw [same]
          exact gone
        · exact Aside.unlink.absent same absent
  obtain ⟨aside, kept, gone⟩ := executed
  rcases stepped with done | failed
  · rw [done] at aside kept gone
    exact ⟨aside, kept, gone⟩
  · refine ⟨aside_fault aside (fun _ => False.elim) failed, ?_, ?_⟩
    · obtain ⟨_, _, _, came, _⟩ := failed
      rcases came with rfl | ⟨rfl, _⟩ | torn
      · exact fun _ => id
      · exact kept
      · exact torn.elim
    · obtain ⟨_, _, rfl, _⟩ := failed
      exact fun impossible => by cases impossible

/-- The calls that write to one file, or change its mode. -/
def Scribbles (file : Ino) : {ρ : Type} → FsOp ρ → Prop
  | _, .io (.write handle _) => handle = file
  | _, .io (.setPermissions handle _) => handle = file
  | _, .refuseAppend => True
  | _, _ => False

theorem aside_scribbles {ρ : Type} {op : FsOp ρ} {answer : ρ} (scribbles : Scribbles file op)
    (single : Sole slot file start)
    (stepped : (fsMachine host weather).step op start answer finish) :
    Aside (· = slot) start finish ∧ Sole slot file finish := by
  have changed : ∀ inode, Aside (· = slot) start (start.setInode file inode) ∧
      Sole slot file (start.setInode file inode) :=
    fun inode => ⟨Aside.setInode single, single.setInode⟩
  have still : Aside (· = slot) start start ∧ Sole slot file start := ⟨Aside.refl _ _, single⟩
  cases op with
  | unlock handle => exact scribbles.elim
  | refuseAppend =>
      obtain ⟨_, rfl⟩ := stepped
      exact still
  | io call =>
      cases call with
      | write handle bytes =>
          cases scribbles
          rcases stepped with done | ⟨_, _, _, came, _⟩
          · cases done
            exact changed _
          · rcases came with rfl | ⟨rfl, _⟩ | ⟨count, rfl⟩
            · exact still
            · exact changed _
            · exact changed _
      | setPermissions handle mode =>
          cases scribbles
          rcases stepped with done | ⟨_, _, _, came, _⟩
          · cases done
            exact changed _
          · rcases came with rfl | ⟨rfl, _⟩ | torn
            · exact still
            · exact changed _
            · exact torn.elim
      | _ => exact scribbles.elim

theorem aside_scribbles_torn {ρ : Type} {op : FsOp ρ} (scribbles : Scribbles file op)
    (single : Sole slot file start) (torn : (fsMachine host weather).torn op start finish) :
    Aside (· = slot) start finish := by
  cases op with
  | unlock handle => exact scribbles.elim
  | refuseAppend =>
      have same : finish = start := torn
      rw [same]
      exact Aside.refl _ _
  | io call =>
      cases call with
      | write handle bytes =>
          cases scribbles
          obtain ⟨count, rfl⟩ := torn
          exact Aside.setInode single
      | setPermissions handle mode => exact torn.elim
      | _ => exact scribbles.elim

end

/-! ### Programs that keep to their own slots -/

namespace TargetAccess

variable (access : TargetAccess) (host : Host)

/-- The slots of these names beside the target. -/
def Beside (names : List String) (slot : Slot) : Prop :=
  ∃ name ∈ names, slot = host.slot access.parent name

end TargetAccess

/-- Nobody else is at work. -/
def Still (here after : World) : Prop :=
  after = here

/-- What one program may count on while others are at work: they leave its own
slots as they are, and it may make every call that keeps to them. -/
structure Shared (host : Host) (weather : Weather) (own : Slot → Prop)
    (guard : {ρ : Type} → FsOp ρ → World → Prop) (rely : World → World → Prop) : Prop where
  refl : ∀ here, rely here here
  steady : ∀ here finish, rely here finish → Aside (fun slot => ¬ own slot) here finish
  free : ∀ {ρ : Type} (op : FsOp ρ) (here : World),
    (∀ left, (fsMachine host weather).torn op here left → Aside own here left) → guard op here

section

variable {host : Host} {weather : Weather} {guard : {ρ : Type} → FsOp ρ → World → Prop}
  {rely : World → World → Prop} {α ε : Type}

/-- Alone there is nobody to count on. -/
theorem shared_alone : Shared host weather own (fun _ _ => True) Still :=
  ⟨fun _ => rfl, fun here finish same => by rw [same]; exact Aside.refl _ here, fun _ _ _ => trivial⟩

namespace Shared

theorem absent (shared : Shared host weather own guard rely) {here : World} (mine : own slot)
    (gone : here.table.lookup slot = none) (moved : rely here finish) :
    finish.table.lookup slot = none :=
  (shared.steady here finish moved).absent (fun other => other mine) gone

theorem sole (shared : Shared host weather own guard rely) {here : World} (mine : own slot)
    (single : Sole slot file here) (moved : rely here finish) : Sole slot file finish :=
  (shared.steady here finish moved).sole slot file (fun other => other mine) single

theorem filled (shared : Shared host weather own guard rely) (mine : own slot) {bytes : Bytes}
    {here : World} (filled : Filled slot file bytes here) (moved : rely here finish) :
    Filled slot file bytes finish :=
  (shared.steady here finish moved).filled (fun other => other mine) filled

/-- A program that only reads. -/
theorem reads (shared : Shared host weather own guard rely) {program : ExceptT ε (Task FsOp) α}
    {good : α → Prop} (reads : Reads host weather program good) (kept : World → Prop)
    (stable : ∀ here finish, kept here → rely here finish → kept finish) (holds : kept start) :
    program.run.Under (fsMachine host weather) guard rely (Aside own)
      (fun result here => kept here ∧ ∀ value, result = .ok value → good value) start :=
  Task.Upholds.under_keeps reads shared.free (Aside.refl own) stable
    (fun _ _ impossible => impossible.elim) holds

/-- A program that only writes to a file whose only name is its own. -/
theorem scribbles (shared : Shared host weather own guard rely) (mine : own slot)
    {program : ExceptT ε (Task FsOp) α} {good : α → Prop}
    (writes : Task.Yields (fsMachine host weather) (Scribbles file) (fun _ => True) program good)
    (single : Sole slot file start) :
    program.run.Under (fsMachine host weather) guard rely (Aside own)
      (fun result here => Sole slot file here ∧ ∀ value, result = .ok value → good value)
      start := by
  refine Task.Upholds.under_keeps writes shared.free (Aside.refl own)
    (fun here finish single moved => shared.sole mine single moved) ?_ single
  intro ρ op here allowed single
  have within : ∀ other, other = slot → own other := fun other same => same ▸ mine
  refine ⟨fun left torn => (aside_scribbles_torn allowed single torn).mono within,
    fun answer finish stepped => ?_⟩
  obtain ⟨aside, still⟩ := aside_scribbles allowed single stepped
  exact ⟨aside.mono within, still⟩

variable {access : TargetAccess} {name : String}

theorem createNew (shared : Shared host weather own guard rely)
    (mine : own (host.slot access.parent name)) :
    (access.createNew name).run.Under (fsMachine host weather) guard rely (Aside own)
      (fun result here => ∀ file, result = .ok file →
        Filled (host.slot access.parent name) file [] here) start := by
  unfold TargetAccess.createNew
  refine Task.Under.except_bind shared.refl (fun here moved => ?_)
  cases checked : validateArtifactName name with
  | error error =>
      intro later again file impossible
      cases impossible
  | ok value =>
      intro later again
      refine ⟨shared.free _ later fun left impossible => impossible.elim,
        fun answer finish stepped => ?_⟩
      obtain ⟨aside, empty⟩ := aside_createNew stepped
      refine ⟨aside.mono fun other same => same ▸ mine, fun last moving file same => ?_⟩
      exact shared.filled mine (empty file same) moving

/-- What is removed is gone, and what was gone stays so. -/
theorem removeArtifact (shared : Shared host weather own guard rely)
    (mine : own (host.slot access.parent name)) {gone : Slot → Prop}
    (within : ∀ slot, gone slot → own slot)
    (absent : ∀ slot, gone slot → start.table.lookup slot = none) :
    (access.removeArtifact name).run.Under (fsMachine host weather) guard rely (Aside own)
      (fun result here => (∀ slot, gone slot → here.table.lookup slot = none) ∧
        ∀ removed, result = .ok removed →
          here.table.lookup (host.slot access.parent name) = none) start := by
  have stable : ∀ here finish, (∀ slot, gone slot → here.table.lookup slot = none) →
      rely here finish → ∀ slot, gone slot → finish.table.lookup slot = none :=
    fun here finish kept moved slot taken =>
      shared.absent (within slot taken) (kept slot taken) moved
  unfold TargetAccess.removeArtifact
  refine Task.Under.except_bind shared.refl
    ((shared.reads yields_liftExcept
      (fun here => ∀ slot, gone slot → here.table.lookup slot = none) stable absent).mono
        fun result here looked => ?_)
  cases result with
  | error error =>
      exact fun later moved => ⟨stable here later looked.1 moved, fun _ impossible => by
        cases impossible⟩
  | ok value =>
      refine Task.Under.except_bind shared.refl fun later moved => ?_
      have kept := stable here later looked.1 moved
      refine ⟨shared.free _ later fun left impossible => impossible.elim,
        fun answer finish stepped => ?_⟩
      have same := (quiet_symlinkMetadata access.parent name later).2 answer finish stepped
      subst same
      refine ⟨Aside.refl own finish, fun further again => ?_⟩
      have standing := stable finish further kept again
      cases answer with
      | error error =>
          by_cases missing : error.kind = .notFound
          · have nothing : finish.table.lookup (host.slot access.parent name) = none := by
              have unseen : finish.look (host.slot access.parent name) = none := by
                rcases stepped with executed | ⟨_, found, same, _, denies⟩
                · cases shows : finish.look (host.slot access.parent name) with
                  | none => rfl
                  | some seen =>
                      simp only [FsCall.exec, shows] at executed
                      cases executed
                · cases same
                  rcases denies missing with away | ⟨_, removal⟩
                  · exact Option.not_isSome_iff_eq_none.mp away
                  · exact removal.elim
              exact Option.map_eq_none_iff.mp unseen
            simp only [missing, if_true]
            intro last moving
            refine ⟨stable further last standing moving, fun _ _ => ?_⟩
            exact shared.absent mine (shared.absent mine nothing again) moving
          · simp only [missing, if_false]
            exact fun last moving => ⟨stable further last standing moving, fun _ impossible => by
              cases impossible⟩
      | ok metadata =>
          dsimp only
          split
          · exact fun last moving => ⟨stable further last standing moving, fun _ impossible => by
              cases impossible⟩
          · refine Task.Under.except_bind shared.refl fun last moving => ?_
            have remaining := stable further last standing moving
            refine ⟨shared.free _ last fun left impossible => impossible.elim,
              fun answer after removed => ?_⟩
            obtain ⟨aside, keeps, clears⟩ := aside_removeFile removed
            refine ⟨aside.mono fun other same => same ▸ mine, ?_⟩
            have cleared : ∀ slot, gone slot → after.table.lookup slot = none :=
              fun slot taken => keeps slot (remaining slot taken)
            intro ending moved
            have lasting := stable after ending cleared moved
            cases answer with
            | error error =>
                exact fun later moved => ⟨stable ending later lasting moved,
                  fun _ impossible => by cases impossible⟩
            | ok value =>
                have vanished := shared.absent mine (clears rfl) moved
                refine Task.Under.except_bind shared.refl ((shared.reads
                  access.syncParent_reads (fun here =>
                    (∀ slot, gone slot → here.table.lookup slot = none) ∧
                      here.table.lookup (host.slot access.parent name) = none)
                  (fun here finish both moved => ⟨stable here finish both.1 moved,
                    shared.absent mine both.2 moved⟩) ⟨lasting, vanished⟩).mono
                  fun result synced told => ?_)
                cases result with
                | error error =>
                    exact fun later moved => ⟨stable synced later told.1.1 moved,
                      fun _ impossible => by cases impossible⟩
                | ok value =>
                    exact fun later moved => ⟨stable synced later told.1.1 moved,
                      fun _ _ => shared.absent mine told.1.2 moved⟩

end Shared

end

/-! ### Calls on a new file -/

section

variable {host : Host} {weather : Weather} {guard : {ρ : Type} → FsOp ρ → World → Prop}
  {rely : World → World → Prop} {bytes more : Bytes}

/-- What is written comes after what was there. -/
theorem filled_write {answer : Except IoError Unit} {finish : World}
    (filled : Filled slot file bytes start)
    (stepped : (fsMachine host weather).step (.io (.write file more)) start answer finish) :
    answer = .ok () → Filled slot file (bytes ++ more) finish := by
  intro written
  have scribbles : Scribbles file (FsOp.io (.write file more)) := rfl
  obtain ⟨_, single⟩ := aside_scribbles scribbles filled.sole stepped
  rcases stepped with done | ⟨_, _, failed, _⟩
  · cases done
    have appended : (start.append file more).inodes file =
        { start.inodes file with bytes := (start.inodes file).bytes ++ more } :=
      Function.update_self _ _ _
    refine ⟨single, ?_, ?_⟩
    · rw [appended]
      exact filled.regular
    · rw [appended]
      exact congrArg (· ++ more) filled.content
  · rw [failed] at written
    cases written

/-- The calls that change nothing but the mode of one file. -/
def Chmods (file : Ino) : {ρ : Type} → FsOp ρ → Prop
  | _, .io (.setPermissions handle _) => handle = file
  | _, _ => False

theorem Chmods.scribbles {ρ : Type} {op : FsOp ρ} (chmods : Chmods file op) :
    Scribbles file op := by
  cases op with
  | io call =>
      cases call with
      | setPermissions handle mode => exact chmods
      | _ => exact chmods.elim
  | _ => exact chmods.elim

theorem filled_chmods {ρ : Type} {op : FsOp ρ} {answer : ρ} {finish : World}
    (chmods : Chmods file op) (filled : Filled slot file bytes start)
    (stepped : (fsMachine host weather).step op start answer finish) :
    Filled slot file bytes finish := by
  cases op with
  | io call =>
      cases call with
      | setPermissions handle mode =>
          cases chmods
          have changed : Filled slot file bytes (start.chmod file mode) := by
            have same : (start.chmod file mode).inodes file =
                { start.inodes file with mode := mode } := Function.update_self _ _ _
            refine ⟨filled.sole.setInode, ?_, ?_⟩
            · rw [same]
              exact filled.regular
            · rw [same]
              exact filled.content
          rcases stepped with done | ⟨_, _, _, came, _⟩
          · cases done
            exact changed
          · rcases came with rfl | ⟨rfl, _⟩ | torn
            · exact filled
            · exact changed
            · exact torn.elim
      | _ => exact chmods.elim
  | _ => exact chmods.elim

namespace Shared

/-- A write to a file whose only name is its own. -/
theorem writes (shared : Shared host weather own guard rely) (mine : own slot)
    (filled : Filled slot file bytes start) :
    (perform (.write file more) : Io Unit).run.Under (fsMachine host weather) guard rely (Aside own)
      (fun result here => ∀ value, result = .ok value → Filled slot file (bytes ++ more) here)
      start := by
  have within : ∀ other, other = slot → own other := fun other same => same ▸ mine
  intro here moved
  have ready := shared.filled mine filled moved
  have scribbles : Scribbles file (FsOp.io (.write file more)) := rfl
  refine ⟨shared.free _ here fun left torn =>
    (aside_scribbles_torn scribbles ready.sole torn).mono within, fun answer finish stepped => ?_⟩
  obtain ⟨aside, _⟩ := aside_scribbles scribbles ready.sole stepped
  refine ⟨aside.mono within, fun last moving value same => ?_⟩
  exact shared.filled mine (filled_write ready stepped same) moving

/-- A program that only changes the mode of such a file. -/
theorem chmods (shared : Shared host weather own guard rely) (mine : own slot) {α ε : Type}
    {program : ExceptT ε (Task FsOp) α}
    (changes : Task.Yields (fsMachine host weather) (Chmods file) (fun _ => True) program
      fun _ => True) (filled : Filled slot file bytes start) :
    program.run.Under (fsMachine host weather) guard rely (Aside own)
      (fun _ here => Filled slot file bytes here) start := by
  have within : ∀ other, other = slot → own other := fun other same => same ▸ mine
  have stable : ∀ here finish, Filled slot file bytes here → rely here finish →
      Filled slot file bytes finish := fun here finish filled moved =>
        shared.filled mine filled moved
  refine (Task.Upholds.under_keeps changes shared.free (Aside.refl own) stable ?_ filled).mono
    fun _ _ told => told.1
  intro ρ op here allowed filled
  refine ⟨fun left torn => (aside_scribbles_torn allowed.scribbles filled.sole torn).mono within,
    fun answer finish stepped => ?_⟩
  obtain ⟨aside, _⟩ := aside_scribbles allowed.scribbles filled.sole stepped
  exact ⟨aside.mono within, filled_chmods allowed filled stepped⟩

variable {access : TargetAccess} {name : String}

/-- What is read of such a file is what was written to it. -/
theorem measures (shared : Shared host weather own guard rely)
    (mine : own (host.slot access.parent name)) (sha256 : Bytes → Sha256Hash) (maxBytes : Nat)
    (filled : Filled (host.slot access.parent name) file bytes start) :
    (access.artifactEvidence sha256 name maxBytes).run.Under (fsMachine host weather) guard rely
      (Aside own) (fun result _ => ∀ evidence, result = .ok evidence →
        evidence.bytes = bytes.length) start := by
  have stable : ∀ here finish,
      (Sole (host.slot access.parent name) file here ∧ here.inodes file = start.inodes file) →
      rely here finish →
      (Sole (host.slot access.parent name) file finish ∧ finish.inodes file = start.inodes file) :=
    fun here finish known moved => ⟨shared.sole mine known.1 moved,
      (((shared.steady here finish moved).rest _ fun other => other mine).inode file
        known.1.named).trans known.2⟩
  have sees : ∀ world,
      (Sole (host.slot access.parent name) file world ∧ world.inodes file = start.inodes file) →
      world.look (access.artifact host name) = some ⟨file, start.inodes file, 1⟩ := by
    intro world known
    rw [← known.2]
    exact known.1.shows
  refine (Task.Learns.under (access.artifactEvidence_learns sha256 maxBytes sees)
    ⟨filled.sole, rfl⟩ stable (Aside.refl own) fun here _ ρ op quiet => ?_).mono
    fun result here told evidence same => ?_
  · exact shared.free op here fun left torn => absurd torn ((quiet here).1 left)
  · rw [same] at told
    obtain ⟨_, seen, shown, _, _, _, rfl⟩ := told
    cases shown
    exact congrArg List.length filled.content

end Shared

end

end Worktree
