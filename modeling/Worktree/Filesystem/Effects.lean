import Worktree.Filesystem.Observing
/-
What the changes of the world do to what the directory entries show.

A file with one name is nobody else's business, so changing it leaves every
other entry as it was; the two names of a linked file stand for each other.
-/

namespace Worktree

open CrashLogic

namespace World

variable {world : World} {slot other third : Slot} {seen there : Seen} {ino : Ino}

/-! ### Names and views -/

theorem look_eq_none_iff : world.look slot = none ↔ world.table.lookup slot = none := by
  simp [look]

theorem look_eq_some_iff : world.look slot = some seen ↔
    world.table.lookup slot = some seen.ino ∧ world.seen seen.ino = seen := by
  constructor
  · intro shows
    obtain ⟨found, named, rfl⟩ := Option.map_eq_some_iff.mp shows
    exact ⟨named, rfl⟩
  · rintro ⟨named, same⟩
    rw [look, named, Option.map_some, same]

theorem links_of_look (shows : world.look slot = some seen) :
    LinkTable.links world.table seen.ino = seen.links :=
  congrArg Seen.links (seen_of_look shows)

/-- The only entry of a file with one link. -/
theorem only_name (shows : world.look slot = some seen) (single : seen.links = 1)
    (also : world.look other = some there) (same : there.ino = seen.ino) : other = slot := by
  apply LinkTable.name_unique world.table seen.ino slot other
  · exact (links_of_look shows).trans single
  · exact (look_eq_some_iff.mp shows).1
  · rw [← same]
    exact (look_eq_some_iff.mp also).1

/-- The only entries of a file with two. -/
theorem only_names (different : other ≠ slot) (shows : world.look slot = some seen)
    (also : world.look other = some seen) (double : seen.links = 2)
    (found : world.look third = some there) (same : there.ino = seen.ino) :
    third = slot ∨ third = other := by
  apply LinkTable.name_of_two world.table seen.ino slot other third
  · exact (links_of_look shows).trans double
  · exact different
  · exact (look_eq_some_iff.mp shows).1
  · exact (look_eq_some_iff.mp also).1
  · rw [← same]
    exact (look_eq_some_iff.mp found).1

/-- What an entry shows depends on the file it names only. -/
theorem look_congr {after : World} (named : after.table.lookup slot = world.table.lookup slot)
    (same : ∀ seen, world.look slot = some seen → after.seen seen.ino = seen) :
    after.look slot = world.look slot := by
  cases shown : world.look slot with
  | none =>
      rw [look_eq_none_iff, named]
      exact look_eq_none_iff.mp shown
  | some seen =>
      rw [look_eq_some_iff, named]
      exact ⟨(look_eq_some_iff.mp shown).1, same seen shown⟩

/-! ### Removing a name -/

theorem look_unlink_self : (world.unlink slot).look slot = none := by
  rw [look_eq_none_iff]
  exact AList.lookup_erase slot world.table

theorem look_unlink_of_single (shows : world.look slot = some seen) (single : seen.links = 1)
    (different : other ≠ slot) : (world.unlink slot).look other = world.look other := by
  apply look_congr (AList.lookup_erase_ne different)
  intro there also
  have apart : world.table.lookup slot ≠ some there.ino := by
    intro named
    rw [(look_eq_some_iff.mp shows).1] at named
    exact different (only_name shows single also (Option.some.inj named).symm)
  have counted := LinkTable.links_erase world.table slot there.ino
  rw [if_neg apart] at counted
  refine Eq.trans ?_ (seen_of_look also)
  exact congrArg (Seen.mk there.ino (world.inodes there.ino)) counted

/-- One of the two names of a file goes, and the other stands alone. -/
theorem look_unlink_partner (different : other ≠ slot) (shows : world.look slot = some seen)
    (also : world.look other = some seen) (double : seen.links = 2) :
    (world.unlink slot).look other = some { seen with links := 1 } := by
  rw [look_eq_some_iff]
  refine ⟨(AList.lookup_erase_ne different).trans (look_eq_some_iff.mp also).1, ?_⟩
  have counted := LinkTable.links_erase world.table slot seen.ino
  rw [if_pos (look_eq_some_iff.mp shows).1, links_of_look shows, double] at counted
  have single : LinkTable.links (world.table.erase slot) seen.ino = 1 := by omega
  refine (congrArg (Seen.mk seen.ino (world.inodes seen.ino)) single).trans ?_
  rw [inode_of_look shows]

theorem look_unlink_of_double (different : other ≠ slot) (shows : world.look slot = some seen)
    (also : world.look other = some seen) (double : seen.links = 2) (apart : third ≠ slot)
    (apart' : third ≠ other) : (world.unlink slot).look third = world.look third := by
  apply look_congr (AList.lookup_erase_ne apart)
  intro there found
  have foreign : world.table.lookup slot ≠ some there.ino := by
    intro named
    rw [(look_eq_some_iff.mp shows).1] at named
    rcases only_names different shows also double found (Option.some.inj named).symm with
      rfl | rfl
    · exact apart rfl
    · exact apart' rfl
  have counted := LinkTable.links_erase world.table slot there.ino
  rw [if_neg foreign] at counted
  refine Eq.trans ?_ (seen_of_look found)
  exact congrArg (Seen.mk there.ino (world.inodes there.ino)) counted

/-! ### Adding a name -/

theorem look_link_self (absent : world.look other = none) (shows : world.look slot = some seen)
    (single : seen.links = 1) :
    (world.link other seen.ino).look other = some { seen with links := 2 } := by
  rw [look_eq_some_iff]
  refine ⟨AList.lookup_insert world.table, ?_⟩
  have counted := LinkTable.links_insert_new world.table other seen.ino seen.ino
    (look_eq_none_iff.mp absent)
  rw [if_pos rfl, links_of_look shows, single] at counted
  refine (congrArg (Seen.mk seen.ino (world.inodes seen.ino)) counted).trans ?_
  rw [inode_of_look shows]

theorem look_link_source (absent : world.look other = none) (shows : world.look slot = some seen)
    (single : seen.links = 1) :
    (world.link other seen.ino).look slot = some { seen with links := 2 } := by
  have different : slot ≠ other := by
    rintro rfl
    rw [shows] at absent
    cases absent
  have linked := look_link_self absent shows single
  rw [look_eq_some_iff] at linked ⊢
  exact ⟨(AList.lookup_insert_ne different).trans (look_eq_some_iff.mp shows).1, linked.2⟩

theorem look_link_of_single (absent : world.look other = none)
    (shows : world.look slot = some seen) (single : seen.links = 1) (apart : third ≠ slot)
    (apart' : third ≠ other) : (world.link other seen.ino).look third = world.look third := by
  apply look_congr (AList.lookup_insert_ne apart')
  intro there found
  have foreign : seen.ino ≠ there.ino :=
    fun same => apart (only_name shows single found same.symm)
  have counted := LinkTable.links_insert_new world.table other seen.ino there.ino
    (look_eq_none_iff.mp absent)
  rw [if_neg foreign] at counted
  refine Eq.trans ?_ (seen_of_look found)
  exact congrArg (Seen.mk there.ino (world.inodes there.ino)) counted

/-! ### Moving a name -/

theorem links_move (different : other ≠ slot) (shows : world.look slot = some seen) (ino : Ino) :
    LinkTable.links (world.move slot other seen.ino).table ino +
        (if world.table.lookup other = some ino then 1 else 0) =
      LinkTable.links world.table ino := by
  have inserted := LinkTable.links_insert (world.table.erase slot) other seen.ino ino
  have erased := LinkTable.links_erase (world.table.erase slot) other ino
  have first := LinkTable.links_erase world.table slot ino
  rw [AList.lookup_erase_ne different] at erased
  rw [(look_eq_some_iff.mp shows).1] at first
  simp only [Option.some.injEq] at first
  change LinkTable.links ((world.table.erase slot).insert other seen.ino) ino + _ = _
  omega

theorem look_move_source (different : other ≠ slot) :
    (world.move slot other ino).look slot = none := by
  rw [look_eq_none_iff]
  exact (AList.lookup_insert_ne (Ne.symm different)).trans (AList.lookup_erase slot world.table)

theorem look_move_self (different : other ≠ slot) (shows : world.look slot = some seen)
    (foreign : ∀ there, world.look other = some there → there.ino ≠ seen.ino) :
    (world.move slot other seen.ino).look other = some seen := by
  rw [look_eq_some_iff]
  refine ⟨AList.lookup_insert _, ?_⟩
  have apart : world.table.lookup other ≠ some seen.ino := by
    intro named
    refine foreign (world.seen seen.ino) ?_ rfl
    rw [look, named, Option.map_some]
  have counted := links_move different shows seen.ino
  rw [if_neg apart] at counted
  refine Eq.trans ?_ (seen_of_look shows)
  exact congrArg (Seen.mk seen.ino (world.inodes seen.ino)) counted

/-- Nobody else notices a move over a file that has no other name. -/
theorem look_move_of_single (different : other ≠ slot) (shows : world.look slot = some seen)
    (alone : ∀ there, world.look other = some there → there.links = 1) (apart : third ≠ slot)
    (apart' : third ≠ other) : (world.move slot other seen.ino).look third = world.look third := by
  have named : (world.move slot other seen.ino).table.lookup third = world.table.lookup third :=
    (AList.lookup_insert_ne apart').trans (AList.lookup_erase_ne apart)
  apply look_congr named
  intro there found
  have foreign : world.table.lookup other ≠ some there.ino := by
    intro same
    have shown : world.look other = some (world.seen there.ino) := by
      rw [look, same, Option.map_some]
    exact apart' (only_name shown (alone _ shown) found rfl)
  have counted := links_move different shows there.ino
  rw [if_neg foreign] at counted
  refine Eq.trans ?_ (seen_of_look found)
  exact congrArg (Seen.mk there.ino (world.inodes there.ino)) counted

/-! ### Changing a file -/

theorem look_setInode_self {inode : Inode} (shows : world.look slot = some seen) :
    (world.setInode seen.ino inode).look slot = some { seen with inode := inode } := by
  rw [look_eq_some_iff]
  refine ⟨(look_eq_some_iff.mp shows).1, ?_⟩
  have links := links_of_look shows
  simp only [World.seen, setInode, Function.update_self]
  rw [links]

theorem look_setInode_ne {inode : Inode}
    (foreign : ∀ there, world.look slot = some there → there.ino ≠ ino) :
    (world.setInode ino inode).look slot = world.look slot := by
  have named : (world.setInode ino inode).table.lookup slot = world.table.lookup slot := rfl
  apply look_congr named
  intro there found
  simp only [World.seen, setInode]
  rw [Function.update_of_ne (foreign there found)]
  exact seen_of_look found

/-! ### Fresh files -/

theorem le_foldr_max (values : List Nat) (least value : Nat) (among : value ∈ values) :
    value ≤ values.foldr max least := by
  induction values with
  | nil => cases among
  | cons first rest ih =>
      rcases List.mem_cons.mp among with rfl | later
      · exact Nat.le_max_left _ _
      · exact le_trans (ih later) (Nat.le_max_right _ _)

theorem least_le_foldr_max (values : List Nat) (least : Nat) : least ≤ values.foldr max least := by
  induction values with
  | nil => exact le_rfl
  | cons first rest ih => exact le_trans ih (Nat.le_max_right _ _)

theorem beyond_free (world : World) : world.Free world.beyond := by
  constructor
  · refine List.count_eq_zero_of_not_mem fun among => ?_
    have bounded := le_foldr_max _ world.root _ among
    exact absurd bounded (by unfold beyond; omega)
  · have bounded := least_le_foldr_max (world.table.entries.map Sigma.snd) world.root
    exact Nat.ne_of_gt (Nat.lt_succ_of_le bounded)

theorem nextFree_free (world : World) (spare : List Ino) :
    world.Free (world.nextFree spare).1 := by
  induction spare with
  | nil => exact world.beyond_free
  | cons ino rest ih =>
      by_cases free : world.Free ino
      · rw [nextFree, if_pos free]
        exact free
      · rw [nextFree, if_neg free]
        exact ih

def fresh (world : World) : Ino :=
  (world.nextFree world.spare).1

theorem fresh_unnamed (world : World) (slot : Slot) :
    world.table.lookup slot ≠ some world.fresh :=
  LinkTable.lookup_ne_of_links_zero world.table world.fresh
    (nextFree_free world world.spare).1 slot

theorem fresh_unseen (shows : world.look slot = some seen) : seen.ino ≠ world.fresh := by
  intro same
  apply world.fresh_unnamed slot
  rw [← same]
  exact (look_eq_some_iff.mp shows).1

theorem look_make_self {inode : Inode} (absent : world.look slot = none) :
    (world.make slot inode).look slot = some ⟨world.fresh, inode, 1⟩ := by
  rw [look_eq_some_iff]
  refine ⟨AList.lookup_insert world.table, ?_⟩
  have counted := LinkTable.links_insert_new world.table slot world.fresh world.fresh
    (look_eq_none_iff.mp absent)
  have unnamed : LinkTable.links world.table world.fresh = 0 :=
    (nextFree_free world world.spare).1
  rw [if_pos rfl, unnamed] at counted
  change Seen.mk world.fresh (Function.update world.inodes world.fresh inode world.fresh) _ = _
  rw [Function.update_self]
  exact congrArg (Seen.mk world.fresh inode) counted

theorem look_make_ne {inode : Inode} (absent : world.look slot = none) (different : other ≠ slot) :
    (world.make slot inode).look other = world.look other := by
  apply look_congr (AList.lookup_insert_ne different)
  intro there found
  have foreign := fresh_unseen found
  have counted := LinkTable.links_insert_new world.table slot world.fresh there.ino
    (look_eq_none_iff.mp absent)
  rw [if_neg (Ne.symm foreign)] at counted
  change Seen.mk there.ino (Function.update world.inodes world.fresh inode there.ino) _ = _
  rw [Function.update_of_ne foreign]
  refine Eq.trans ?_ (seen_of_look found)
  exact congrArg (Seen.mk there.ino (world.inodes there.ino)) counted

end World

end Worktree
