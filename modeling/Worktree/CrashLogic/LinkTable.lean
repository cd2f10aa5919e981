import Mathlib.Data.List.AList
/-
Finite tables from names to nodes in which several names may share a node.

The number of names of a node is computed from the table, never stored beside
it, so no operation can leave a stale count.
-/

namespace CrashLogic

/-- Each name has at most one node; a node may have many names. -/
abbrev LinkTable (κ ι : Type) := AList fun _ : κ => ι

namespace LinkTable

variable {κ ι : Type} [DecidableEq κ] [DecidableEq ι]

/-- How many names the node has. -/
def links (table : LinkTable κ ι) (node : ι) : Nat :=
  (table.entries.map Sigma.snd).count node

private theorem count_kerase (entries : List (Sigma fun _ : κ => ι)) (name : κ) (node : ι) :
    ((entries.kerase name).map Sigma.snd).count node +
        (if entries.dlookup name = some node then 1 else 0) =
      (entries.map Sigma.snd).count node := by
  induction entries with
  | nil => simp
  | cons entry rest ih =>
      obtain ⟨key, value⟩ := entry
      by_cases same : name = key
      · subst same
        have erased : List.kerase name (⟨name, value⟩ :: rest : List (Sigma fun _ : κ => ι)) =
            rest := List.kerase_cons_eq rfl
        rw [erased, List.dlookup_cons_eq, List.map_cons, List.count_cons]
        simp only [Option.some.injEq, beq_iff_eq]
      · rw [List.kerase_cons_ne same, List.dlookup_cons_ne _ _ same]
        simp only [List.map_cons, List.count_cons]
        omega

theorem links_erase (table : LinkTable κ ι) (name : κ) (node : ι) :
    (links (table.erase name) node) + (if table.lookup name = some node then 1 else 0) =
      links table node :=
  count_kerase table.entries name node

theorem links_insert (table : LinkTable κ ι) (name : κ) (target node : ι) :
    links (table.insert name target) node =
      links (table.erase name) node + (if target = node then 1 else 0) := by
  change ((List.kinsert name target table.entries).map Sigma.snd).count node = _
  rw [List.kinsert_def, List.map_cons, List.count_cons]
  simp only [beq_iff_eq]
  rfl

theorem links_insert_new (table : LinkTable κ ι) (name : κ) (target node : ι)
    (absent : table.lookup name = none) :
    links (table.insert name target) node =
      links table node + (if target = node then 1 else 0) := by
  have counted := links_erase table name node
  rw [absent] at counted
  rw [links_insert, ← counted]
  simp

theorem links_pos (table : LinkTable κ ι) (name : κ) (node : ι)
    (named : table.lookup name = some node) : 0 < links table node := by
  have counted := links_erase table name node
  rw [if_pos named] at counted
  omega

theorem lookup_ne_of_links_zero (table : LinkTable κ ι) (node : ι)
    (unlinked : links table node = 0) (name : κ) : table.lookup name ≠ some node := by
  intro named
  have positive := links_pos table name node named
  omega

/-- A node with one link has one name. -/
theorem name_unique (table : LinkTable κ ι) (node : ι) (first second : κ)
    (single : links table node = 1) (named : table.lookup first = some node)
    (other : table.lookup second = some node) : second = first := by
  by_contra different
  have counted := links_erase table first node
  rw [if_pos named, single] at counted
  have still : (table.erase first).lookup second = some node := by
    rw [AList.lookup_erase_ne different]
    exact other
  have positive := links_pos (table.erase first) second node still
  omega

theorem links_eq_zero (table : LinkTable κ ι) (node : ι)
    (unnamed : ∀ name, table.lookup name ≠ some node) : links table node = 0 := by
  rw [links, List.count_eq_zero]
  intro among
  obtain ⟨entry, listed, same⟩ := List.mem_map.mp among
  subst same
  exact unnamed entry.1 (AList.mem_lookup_iff.mpr listed)

/-- A node with one name has one link. -/
theorem links_eq_one (table : LinkTable κ ι) (name : κ) (node : ι)
    (named : table.lookup name = some node)
    (only : ∀ other, table.lookup other = some node → other = name) : links table node = 1 := by
  have counted := links_erase table name node
  have rest : links (table.erase name) node = 0 := by
    apply links_eq_zero
    intro other still
    by_cases same : other = name
    · rw [same, AList.lookup_erase] at still
      cases still
    · rw [AList.lookup_erase_ne same] at still
      exact same (only other still)
  rw [if_pos named, rest] at counted
  omega

/-- A node with two links has no third name. -/
theorem name_of_two (table : LinkTable κ ι) (node : ι) (first second third : κ)
    (double : links table node = 2) (different : second ≠ first)
    (named : table.lookup first = some node) (other : table.lookup second = some node)
    (found : table.lookup third = some node) : third = first ∨ third = second := by
  by_cases same : third = first
  · exact .inl same
  · right
    have counted := links_erase table first node
    rw [if_pos named, double] at counted
    have single : links (table.erase first) node = 1 := by omega
    apply name_unique (table.erase first) node second third single
    · rw [AList.lookup_erase_ne different]
      exact other
    · rw [AList.lookup_erase_ne same]
      exact found

end LinkTable

end CrashLogic
