import Worktree.Filesystem.Effects
/-
What single calls can do to the world, and what no call can do.

Directories stay where they are whatever is called. A file with one name stays
as it is under every call that neither names it nor writes to it.
-/

namespace Worktree

open CrashLogic

namespace FsCall

/-- What may become of the world by a call, whole, failing or torn. -/
inductive Effect (host : Host) (start : World) : {τ : Type} → FsCall τ → World → Prop
  | none {τ : Type} (call : FsCall τ) : Effect host start call start
  | createNew (dir : Ino) (name : String) (inode : Inode)
      (absent : start.look (host.slot dir name) = .none) :
      Effect host start (.openFile dir name .createNew) (start.make (host.slot dir name) inode)
  | create (dir : Ino) (name : String) (inode : Inode)
      (absent : start.look (host.slot dir name) = .none) :
      Effect host start (.openFile dir name .create) (start.make (host.slot dir name) inode)
  | createDir (dir : Ino) (name : String) (inode : Inode)
      (absent : start.look (host.slot dir name) = .none) :
      Effect host start (.createDir dir name) (start.make (host.slot dir name) inode)
  | write (file : Ino) (bytes : Bytes) (count : Nat) :
      Effect host start (.write file bytes) (start.append file (bytes.take count))
  | setPermissions (file : Ino) (mode : Mode) :
      Effect host start (.setPermissions file mode) (start.chmod file mode)
  | setLength (file : Ino) (length : Nat) :
      Effect host start (.setLength file length) (start.resize file length)
  | rename (dir : Ino) (name : String) (toDir : Ino) (toName : String) (moved : Seen)
      (found : start.look (host.slot dir name) = some moved)
      (file : moved.inode.kind ≠ .directory)
      (covered : ∀ there, start.look (host.slot toDir toName) = some there →
        there.inode.kind ≠ .directory ∧ there.ino ≠ moved.ino) :
      Effect host start (.rename dir name toDir toName)
        (start.move (host.slot dir name) (host.slot toDir toName) moved.ino)
  | hardLink (dir : Ino) (name : String) (toDir : Ino) (toName : String) (linked : Seen)
      (found : start.look (host.slot dir name) = some linked)
      (file : linked.inode.kind ≠ .directory)
      (absent : start.look (host.slot toDir toName) = .none) :
      Effect host start (.hardLink dir name toDir toName)
        (start.link (host.slot toDir toName) linked.ino)
  | removeFile (dir : Ino) (name : String) (found : Seen)
      (shows : start.look (host.slot dir name) = some found)
      (file : found.inode.kind ≠ .directory) :
      Effect host start (.removeFile dir name) (start.unlink (host.slot dir name))
  | tryLock (file : Ino) :
      Effect host start (.tryLock file) { start with locks := file :: start.locks }
  | random (count : Nat) :
      Effect host start (.random count) { start with entropy := start.entropy.tail }

section

variable {host : Host} {start : World} {τ : Type}

theorem effect_openFile (dir : Ino) (name : String) (mode : OpenMode) :
    Effect host start (.openFile dir name mode) (execOpen host start dir name mode).2 := by
  cases mode with
  | createNew =>
      simp only [execOpen]
      split
      · exact .none _
      · next absent => exact .createNew dir name _ absent
  | create =>
      simp only [execOpen]
      split
      · split <;> exact .none _
      · next absent => exact .create dir name _ absent
  | readWrite =>
      simp only [execOpen]
      split
      · exact .none _
      · split <;> exact .none _
  | read =>
      simp only [execOpen]
      split
      · exact .none _
      · split <;> exact .none _

theorem effect_rename (dir : Ino) (name : String) (toDir : Ino) (toName : String) :
    Effect host start (.rename dir name toDir toName)
      (execRename start (host.slot dir name) (host.slot toDir toName)).2 := by
  unfold execRename
  split
  · exact .none _
  · next moved found =>
      split
      · exact .none _
      · next file =>
          split
          · exact .none _
          · split
            · next absent =>
                refine .rename dir name toDir toName moved found file fun there shows => ?_
                rw [absent] at shows
                cases shows
            · next there shows =>
                split
                · exact .none _
                · next plain =>
                    split
                    · exact .none _
                    · next apart =>
                        refine .rename dir name toDir toName moved found file fun other also => ?_
                        rw [shows] at also
                        cases also
                        exact ⟨plain, apart⟩

theorem effect_hardLink (dir : Ino) (name : String) (toDir : Ino) (toName : String) :
    Effect host start (.hardLink dir name toDir toName)
      (execHardLink start (host.slot dir name) (host.slot toDir toName)).2 := by
  unfold execHardLink
  split
  · exact .none _
  · next linked found =>
      split
      · exact .none _
      · next file =>
          split
          · exact .none _
          · split
            · exact .none _
            · next absent => exact .hardLink dir name toDir toName linked found file absent

theorem exec_effect (call : FsCall τ) : Effect host start call (call.exec host start).2 := by
  cases call with
  | cloneHandle handle => exact .none _
  | dirMetadata dir => exact .none _
  | symlinkMetadata dir name =>
      simp only [exec]
      split <;> exact .none _
  | openDir dir name =>
      simp only [exec]
      split
      · exact .none _
      · split <;> exact .none _
  | createDir dir name =>
      simp only [exec]
      split
      · exact .none _
      · next absent => exact .createDir dir name _ absent
  | openFile dir name mode => exact effect_openFile dir name mode
  | metadata file => exact .none _
  | read file limit =>
      simp only [exec]
      split <;> exact .none _
  | write file bytes =>
      have whole : Effect host start _ _ := .write file bytes bytes.length
      rw [List.take_length] at whole
      exact whole
  | setPermissions file mode => exact .setPermissions file mode
  | setLength file length => exact .setLength file length
  | syncFile file => exact .none _
  | syncDir dir => exact .none _
  | rename dir name toDir toName => exact effect_rename dir name toDir toName
  | hardLink dir name toDir toName => exact effect_hardLink dir name toDir toName
  | removeFile dir name =>
      simp only [exec]
      split
      · exact .none _
      · next found shows =>
          split
          · exact .none _
          · next file => exact .removeFile dir name found shows file
  | entries dir => exact .none _
  | tryLock file =>
      simp only [exec]
      split
      · exact .none _
      · exact .tryLock file
  | random count => exact .random count

theorem torn_effect {call : FsCall τ} {left : World} (torn : call.torn start left) :
    Effect host start call left := by
  cases call with
  | write file bytes =>
      obtain ⟨count, rfl⟩ := torn
      exact .write file bytes count
  | _ => exact torn.elim

theorem step_effect {weather : Weather} {call : FsCall τ} {answer : Except IoError τ}
    {finish : World} (stepped : (fsMachine host weather).step (.io call) start answer finish) :
    Effect host start call finish := by
  rcases stepped with executed | ⟨_, _, _, rfl | ⟨rfl, _⟩ | torn, _⟩
  · have whole : Effect host start call (call.exec host start).2 := exec_effect call
    rw [executed] at whole
    exact whole
  · exact .none call
  · exact exec_effect call
  · exact torn_effect torn

/-- The entry a removal is about. -/
def removes (host : Host) : {τ : Type} → FsCall τ → Option Slot
  | _, .removeFile dir name => some (host.slot dir name)
  | _, _ => Option.none

theorem Effect.removed {call : FsCall τ} {slot : Slot} {left : World}
    (effect : Effect host start call left) (removal : call.removes host = some slot) :
    left = start ∨ left = start.unlink slot := by
  cases effect with
  | none => exact .inl rfl
  | removeFile dir name found shows file =>
      cases removal
      exact .inr rfl
  | _ => cases removal

end

end FsCall

/-! ### Directories -/

/-- The entry leads to a directory. -/
def World.Leads (world : World) (slot : Slot) (ino : Ino) : Prop :=
  world.table.lookup slot = some ino ∧ (world.inodes ino).kind = .directory

namespace World

variable {host : Host} {world : World} {slot other : Slot} {ino file : Ino} {seen : Seen}
  {τ : Type}

theorem Leads.look (leads : world.Leads slot ino) :
    ∃ seen, world.look slot = some seen ∧ seen.ino = ino ∧ seen.inode.kind = .directory :=
  ⟨world.seen ino, by rw [World.look, leads.1, Option.map_some], rfl, leads.2⟩

theorem Leads.ne_of_look (leads : world.Leads slot ino) (shows : world.look other = some seen)
    (file : seen.inode.kind ≠ .directory) : other ≠ slot := by
  rintro rfl
  obtain ⟨there, found, _, directory⟩ := leads.look
  rw [shows] at found
  cases found
  exact file directory

theorem Leads.ne_of_absent (leads : world.Leads slot ino) (absent : world.look other = none) :
    other ≠ slot := by
  rintro rfl
  obtain ⟨there, found, _, _⟩ := leads.look
  rw [absent] at found
  cases found

theorem Leads.make {inode : Inode} (leads : world.Leads slot ino)
    (absent : world.look other = none) : (world.make other inode).Leads slot ino := by
  refine ⟨(AList.lookup_insert_ne (leads.ne_of_absent absent).symm).trans leads.1, ?_⟩
  have foreign : ino ≠ world.fresh := by
    rintro rfl
    exact world.fresh_unnamed slot leads.1
  change (Function.update world.inodes world.fresh inode ino).kind = _
  rw [Function.update_of_ne foreign]
  exact leads.2

theorem Leads.setInode {inode : Inode} (leads : world.Leads slot ino)
    (kind : inode.kind = (world.inodes file).kind) :
    (world.setInode file inode).Leads slot ino := by
  refine ⟨leads.1, ?_⟩
  by_cases same : ino = file
  · subst same
    change (Function.update world.inodes ino inode ino).kind = _
    rw [Function.update_self, kind]
    exact leads.2
  · change (Function.update world.inodes file inode ino).kind = _
    rw [Function.update_of_ne same]
    exact leads.2

theorem Leads.effect {call : FsCall τ} {left : World} (leads : world.Leads slot ino)
    (effect : call.Effect host world left) : left.Leads slot ino := by
  cases effect with
  | none => exact leads
  | createNew dir name inode absent => exact leads.make absent
  | create dir name inode absent => exact leads.make absent
  | createDir dir name inode absent => exact leads.make absent
  | write file bytes count => exact leads.setInode rfl
  | setPermissions file mode => exact leads.setInode rfl
  | setLength file length => exact leads.setInode rfl
  | rename dir name toDir toName moved found file covered =>
      have source := leads.ne_of_look found file
      have target : host.slot toDir toName ≠ slot := by
        rintro rfl
        obtain ⟨there, shows, _, directory⟩ := leads.look
        exact (covered there shows).1 directory
      refine ⟨?_, leads.2⟩
      exact (AList.lookup_insert_ne target.symm).trans
        ((AList.lookup_erase_ne source.symm).trans leads.1)
  | hardLink dir name toDir toName linked found file absent =>
      exact ⟨(AList.lookup_insert_ne (leads.ne_of_absent absent).symm).trans leads.1, leads.2⟩
  | removeFile dir name found shows file =>
      exact ⟨(AList.lookup_erase_ne (leads.ne_of_look shows file).symm).trans leads.1, leads.2⟩
  | tryLock file => exact leads
  | random count => exact leads

/-- Whatever is called, an entry that leads to a directory goes on doing so. -/
theorem leads_maintains (host : Host) (weather : Weather) (slot : Slot) (ino : Ino) :
    (fsMachine host weather).Maintains (fun _ => True) (fun world => world.Leads slot ino) := by
  constructor
  · intro ρ op start answer finish _ leads stepped
    cases op with
    | io call => exact leads.effect (FsCall.step_effect stepped)
    | unlock file =>
        cases stepped
        exact leads
    | refuseAppend =>
        obtain ⟨_, rfl⟩ := stepped
        exact leads
  · intro ρ op start left _ leads torn
    cases op with
    | io call =>
        have partly : call.Effect host start left := FsCall.torn_effect torn
        exact leads.effect partly
    | unlock file => exact torn.elim
    | refuseAppend =>
        cases torn
        exact leads

end World

/-! ### A file to be left alone -/

/-- The call neither names the entry in order to change it nor writes to the file. -/
def FsCall.Spares (host : Host) (slot : Slot) (ino : Ino) : {τ : Type} → FsCall τ → Prop
  | _, .write file _ => file ≠ ino
  | _, .setPermissions file _ => file ≠ ino
  | _, .setLength file _ => file ≠ ino
  | _, .rename dir name toDir toName => host.slot dir name ≠ slot ∧ host.slot toDir toName ≠ slot
  | _, .hardLink dir name _ _ => host.slot dir name ≠ slot
  | _, .removeFile dir name => host.slot dir name ≠ slot
  | _, _ => True

def Spares (host : Host) (slot : Slot) (ino : Ino) : {ρ : Type} → FsOp ρ → Prop
  | _, .io call => call.Spares host slot ino
  | _, .unlock _ => True
  | _, .refuseAppend => False

namespace World

variable {host : Host} {world : World} {slot other third : Slot} {ino file : Ino}
  {seen there : Seen} {τ : Type}

theorem look_of_lookup (named : world.table.lookup slot = some ino) :
    world.look slot = some (world.seen ino) := by
  rw [look, named, Option.map_some]

/-- No other entry names the file. -/
theorem lookup_ne_of_single (shows : world.look slot = some seen) (single : seen.links = 1)
    (different : other ≠ slot) : world.table.lookup other ≠ some seen.ino := fun named =>
  different (only_name shows single (look_of_lookup named) rfl)

theorem look_unlink_of_foreign (shows : world.look slot = some seen) (single : seen.links = 1)
    (different : other ≠ slot) : (world.unlink other).look slot = some seen := by
  have foreign := lookup_ne_of_single shows single different
  have counted := LinkTable.links_erase world.table other seen.ino
  rw [if_neg foreign] at counted
  rw [look_eq_some_iff]
  refine ⟨(AList.lookup_erase_ne (Ne.symm different)).trans (look_eq_some_iff.mp shows).1, ?_⟩
  exact (congrArg (Seen.mk seen.ino (world.inodes seen.ino)) counted).trans (seen_of_look shows)

theorem look_link_of_foreign (shows : world.look slot = some seen) (single : seen.links = 1)
    (absent : world.look other = none) (named : world.look third = some there)
    (different : third ≠ slot) : (world.link other there.ino).look slot = some seen := by
  have apart : slot ≠ other := by
    rintro rfl
    rw [shows] at absent
    cases absent
  have foreign : there.ino ≠ seen.ino := fun same =>
    different (only_name shows single named same)
  have counted := LinkTable.links_insert_new world.table other there.ino seen.ino
    (look_eq_none_iff.mp absent)
  rw [if_neg foreign] at counted
  rw [look_eq_some_iff]
  refine ⟨(AList.lookup_insert_ne apart).trans (look_eq_some_iff.mp shows).1, ?_⟩
  exact (congrArg (Seen.mk seen.ino (world.inodes seen.ino)) counted).trans (seen_of_look shows)

theorem look_move_of_foreign (shows : world.look slot = some seen) (single : seen.links = 1)
    (named : world.look other = some there) (source : other ≠ slot) (target : third ≠ slot)
    (covered : ∀ found, world.look third = some found → found.ino ≠ there.ino) :
    (world.move other third there.ino).look slot = some seen := by
  have different : third ≠ other := by
    rintro rfl
    exact covered there named rfl
  have foreign := lookup_ne_of_single shows single target
  have counted := links_move different named seen.ino
  rw [if_neg foreign] at counted
  rw [look_eq_some_iff]
  refine ⟨?_, ?_⟩
  · exact (AList.lookup_insert_ne (Ne.symm target)).trans
      ((AList.lookup_erase_ne (Ne.symm source)).trans (look_eq_some_iff.mp shows).1)
  · exact (congrArg (Seen.mk seen.ino (world.inodes seen.ino)) counted).trans
      (seen_of_look shows)

theorem look_setInode_of_foreign {inode : Inode} (shows : world.look slot = some seen)
    (foreign : file ≠ seen.ino) : (world.setInode file inode).look slot = some seen := by
  rw [look_setInode_ne]
  · exact shows
  · intro there found
    rw [shows] at found
    cases found
    exact foreign.symm

theorem look_make_of_seen {inode : Inode} (shows : world.look slot = some seen)
    (absent : world.look other = none) : (world.make other inode).look slot = some seen := by
  rw [look_make_ne absent]
  · exact shows
  · rintro rfl
    rw [shows] at absent
    cases absent

theorem look_effect {call : FsCall τ} {left : World} (shows : world.look slot = some seen)
    (single : seen.links = 1) (spares : call.Spares host slot seen.ino)
    (effect : call.Effect host world left) : left.look slot = some seen := by
  cases effect with
  | none => exact shows
  | createNew dir name inode absent => exact look_make_of_seen shows absent
  | create dir name inode absent => exact look_make_of_seen shows absent
  | createDir dir name inode absent => exact look_make_of_seen shows absent
  | write file bytes count => exact look_setInode_of_foreign shows spares
  | setPermissions file mode => exact look_setInode_of_foreign shows spares
  | setLength file length => exact look_setInode_of_foreign shows spares
  | rename dir name toDir toName moved found file covered =>
      exact look_move_of_foreign shows single found spares.1 spares.2
        fun there also => (covered there also).2
  | hardLink dir name toDir toName linked found file absent =>
      exact look_link_of_foreign shows single absent found spares
  | removeFile dir name found also file => exact look_unlink_of_foreign shows single spares
  | tryLock file => exact shows
  | random count => exact shows

end World

theorem spares_maintains (host : Host) (weather : Weather) (slot : Slot) (seen : Seen)
    (single : seen.links = 1) :
    (fsMachine host weather).Maintains (Spares host slot seen.ino)
      (fun world => world.look slot = some seen) := by
  constructor
  · intro ρ op start answer finish spares shows stepped
    cases op with
    | io call => exact World.look_effect shows single spares (FsCall.step_effect stepped)
    | unlock file =>
        cases stepped
        exact shows
    | refuseAppend => exact spares.elim
  · intro ρ op start left spares shows torn
    cases op with
    | io call => exact World.look_effect shows single spares (FsCall.torn_effect torn)
    | unlock file => exact torn.elim
    | refuseAppend => exact spares.elim

end Worktree
