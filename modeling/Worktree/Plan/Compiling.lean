import Worktree.Crates.Plain
import Worktree.Plan.Compile
import Mathlib.Data.List.Pairwise
import Mathlib.Data.String.Basic
/-
Which operations compile, and into what.

Registering fills two maps by key, one with what is consumed and one with what
is produced. A list of the entries in the order of the operations says what the
maps hold, and the keys of that list are distinct exactly when no insertion
found its key taken.
-/

namespace Worktree

/-! ### What an operation consumes and produces -/

section

variable {T : Type}

namespace WorktreeOperation

/-- The path that has to be there before. -/
def source : WorktreeOperation T → Option String
  | .modify file => some file.path
  | .create _ => none
  | .delete file => some file.path
  | .rename file => some file.from

/-- The path that is there after. -/
def target : WorktreeOperation T → Option String
  | .modify file => some file.path
  | .create file => some file.path
  | .delete _ => none
  | .rename file => some file.to

/-- The hash that is expected at the source. -/
def sourceHash : WorktreeOperation T → Option String
  | .modify file => some file.sha256
  | .create _ => none
  | .delete file => some file.expectedSha256
  | .rename file => some file.expectedSourceSha256

def input (index : Nat) : WorktreeOperation T → Option (InputEndpoint T)
  | .modify file => some (.modify index file)
  | .create _ => none
  | .delete file => some (.delete index file)
  | .rename file => some (.rename index file)

def output (index : Nat) : WorktreeOperation T → Option (OutputEndpoint T)
  | .modify file => some (.modify index file)
  | .create file => some (.create index file)
  | .delete _ => none
  | .rename file => some (.rename index file)

/-- The paths in the order in which they are registered. -/
def mentions : WorktreeOperation T → List String
  | .modify file => [file.path]
  | .create file => [file.path]
  | .delete file => [file.path]
  | .rename file => [file.from, file.to]

theorem mem_mentions {operation : WorktreeOperation T} {path : String} :
    path ∈ operation.mentions ↔ operation.source = some path ∨ operation.target = some path := by
  cases operation <;> simp [mentions, source, target, eq_comm]

end WorktreeOperation

/-- The operation at this index consumes the key. -/
def Consumes (crates : Crates T) (operations : List (WorktreeOperation T)) (index : Nat)
    (key : String) : Prop :=
  ∃ operation path, operations[index]? = some operation ∧ operation.source = some path ∧
    crates.portablePathKey path = key

/-- The operation at this index produces the key. -/
def Produces (crates : Crates T) (operations : List (WorktreeOperation T)) (index : Nat)
    (key : String) : Prop :=
  ∃ operation path, operations[index]? = some operation ∧ operation.target = some path ∧
    crates.portablePathKey path = key

structure RoleConsistent (crates : Crates T) (operations : List (WorktreeOperation T)) : Prop where
  consumedOnce : ∀ key left right, Consumes crates operations left key →
    Consumes crates operations right key → left = right
  producedOnce : ∀ key left right, Produces crates operations left key →
    Produces crates operations right key → left = right
  /-- One modify, or a rename that leaves and a rename that arrives. -/
  compatible : ∀ key left right, Consumes crates operations left key →
    Produces crates operations right key →
    (left = right ∧ ∃ file, operations[left]? = some (.modify file)) ∨
      (∃ file, operations[left]? = some (.rename file)) ∧
        ∃ file, operations[right]? = some (.rename file)

/-- Every hash of the operation is 64 lowercase hexadecimal digits. -/
def WorktreeOperation.WellFormed (operation : WorktreeOperation T) : Prop :=
  ∀ text, operation.sourceHash = some text → ∃ hash, Sha256Hash.parse text = some hash

/-! ### What a transition says -/

/-- The operation whose input the side is. -/
def PlannedInput.operation : PlannedInput → Option Nat
  | .absent => none
  | .present index _ _ => some index

/-- The operation whose output the side is. -/
def PlannedOutput.operation : PlannedOutput T → Option Nat
  | .absent => none
  | .modify index _ => some index
  | .create index _ => some index
  | .rename index _ _ _ => some index

/-- The side is the input of the operation, with its hash and its role. -/
inductive PlansInput (index : Nat) : WorktreeOperation T → PlannedInput → Prop
  | modify {file : FileEdit T} {hash : Sha256Hash}
      (parsed : Sha256Hash.parse file.sha256 = some hash) :
      PlansInput index (.modify file) (.present index hash .modify)
  | delete {file : DeleteFile} {hash : Sha256Hash}
      (parsed : Sha256Hash.parse file.expectedSha256 = some hash) :
      PlansInput index (.delete file) (.present index hash .delete)
  | rename {file : RenameFile T} {hash : Sha256Hash}
      (parsed : Sha256Hash.parse file.expectedSourceSha256 = some hash) :
      PlansInput index (.rename file) (.present index hash (.renameSource file.to))

/-- The side is the output of the operation, with its edits or contents. -/
inductive PlansOutput (index : Nat) : WorktreeOperation T → PlannedOutput T → Prop
  | modify {file : FileEdit T} : PlansOutput index (.modify file) (.modify index file)
  | create {file : CreateFile} : PlansOutput index (.create file) (.create index file)
  | rename {file : RenameFile T} {hash : Sha256Hash}
      (parsed : Sha256Hash.parse file.expectedSourceSha256 = some hash) :
      PlansOutput index (.rename file) (.rename index file.from hash file.edits)

theorem PlansInput.operation_eq {index : Nat} {operation : WorktreeOperation T}
    {planned : PlannedInput} (plans : PlansInput index operation planned) :
    planned.operation = some index := by
  cases plans <;> rfl

theorem PlansOutput.operation_eq {index : Nat} {operation : WorktreeOperation T}
    {planned : PlannedOutput T} (plans : PlansOutput index operation planned) :
    planned.operation = some index := by
  cases plans <;> rfl

/-- The transitions say of every path what the operations do to it. -/
structure Lossless (crates : Crates T) (operations : List (WorktreeOperation T))
    (transitions : List (PathTransition T)) : Prop where
  increasing : (transitions.map fun transition =>
    crates.portablePathKey transition.path).Pairwise (· < ·)
  mentioned : ∀ key, key ∈ transitions.map (fun transition =>
      crates.portablePathKey transition.path) ↔
    ∃ index, Consumes crates operations index key ∨ Produces crates operations index key
  changing : ∀ transition ∈ transitions,
    ¬ (transition.before = .absent ∧ transition.after = .absent)
  inputs : ∀ index operation path, operations[index]? = some operation →
    operation.source = some path →
    ∃ transition, transitions.filter (fun each => each.before.operation = some index) =
        [transition] ∧
      crates.portablePathKey transition.path = crates.portablePathKey path ∧
      PlansInput index operation transition.before
  outputs : ∀ index operation path, operations[index]? = some operation →
    operation.target = some path →
    ∃ transition, transitions.filter (fun each => each.after.operation = some index) =
        [transition] ∧
      crates.portablePathKey transition.path = crates.portablePathKey path ∧
      PlansOutput index operation transition.after
  /-- No side is of an operation that is not there. -/
  bounded : ∀ transition ∈ transitions, ∀ index,
    transition.before.operation = some index ∨ transition.after.operation = some index →
      index < operations.length

/-! ### Filling the maps -/

/-- The map holds these entries and no other. -/
def Holds {α : Type} (values : KeyMap α) (entries : List (String × α)) : Prop :=
  ∀ key value, values[key]? = some value ↔ (key, value) ∈ entries

theorem Holds.contains {α : Type} {values : KeyMap α} {entries : List (String × α)}
    (holds : Holds values entries) (key : String) :
    values.contains key = true ↔ key ∈ entries.map Prod.fst := by
  rw [Std.TreeMap.contains_eq_isSome_getElem?, Option.isSome_iff_exists, List.mem_map]
  constructor
  · rintro ⟨value, found⟩
    exact ⟨(key, value), (holds key value).mp found, rfl⟩
  · rintro ⟨⟨same, value⟩, among, rfl⟩
    exact ⟨value, (holds same value).mpr among⟩

theorem Holds.insert {α : Type} {values : KeyMap α} {entries : List (String × α)}
    (holds : Holds values entries) {key : String} (fresh : key ∉ entries.map Prod.fst)
    (value : α) : Holds (values.insert key value) (entries ++ [(key, value)]) := by
  intro other found
  rw [Std.TreeMap.getElem?_insert, List.mem_append, List.mem_singleton, Prod.mk.injEq]
  by_cases same : key = other
  · subst same
    rw [if_pos Std.ReflCmp.compare_self, Option.some.injEq]
    constructor
    · intro equal
      exact .inr ⟨rfl, equal.symm⟩
    · rintro (old | ⟨_, equal⟩)
      · exact absurd (List.mem_map.mpr ⟨_, old, rfl⟩) fresh
      · exact equal.symm
  · rw [if_neg fun equal => same (Std.LawfulEqCmp.eq_of_compare equal), holds other found]
    constructor
    · exact Or.inl
    · rintro (old | ⟨equal, _⟩)
      · exact old
      · exact absurd equal.symm same

/-- The entry at most that an operation adds. -/
def addEntry {α : Type} (values : KeyMap α) : Option (String × α) → KeyMap α
  | none => values
  | some (key, value) => values.insert key value

theorem Holds.addEntry {α : Type} {values : KeyMap α} {entries : List (String × α)}
    (holds : Holds values entries) (entry : Option (String × α))
    (fresh : ∀ added ∈ entry, added.1 ∉ entries.map Prod.fst) :
    Holds (addEntry values entry) (entries ++ entry.toList) := by
  cases entry with
  | none =>
      rw [Option.toList_none, List.append_nil]
      exact holds
  | some added => exact holds.insert (fresh added rfl) added.2

namespace Compiler

variable (crates : Crates T)

def inputEntry (index : Nat) (operation : WorktreeOperation T) :
    Option (String × InputEndpoint T) :=
  match operation.source, operation.input index with
  | some path, some input => some (crates.portablePathKey path, input)
  | _, _ => none

def outputEntry (index : Nat) (operation : WorktreeOperation T) :
    Option (String × OutputEndpoint T) :=
  match operation.target, operation.output index with
  | some path, some output => some (crates.portablePathKey path, output)
  | _, _ => none

/-- What is in a map when the operations are registered from this index on. -/
def entries {α : Type} (entryOf : Nat → WorktreeOperation T → Option (String × α)) :
    Nat → List (WorktreeOperation T) → List (String × α)
  | _, [] => []
  | index, operation :: rest =>
      (entryOf index operation).toList ++ entries entryOf (index + 1) rest

variable {crates}

theorem insertInput_ok_iff {values after : KeyMap (InputEndpoint T)} {key : String}
    {value : InputEndpoint T} {index : Nat} :
    insertInput values key value index = .ok after ↔
      values.contains key = false ∧ values.insert key value = after := by
  unfold insertInput
  cases taken : values.contains key <;> simp

theorem insertOutput_ok_iff {values after : KeyMap (OutputEndpoint T)} {key : String}
    {value : OutputEndpoint T} {index : Nat} :
    insertOutput values key value index = .ok after ↔
      values.contains key = false ∧ values.insert key value = after := by
  unfold insertOutput
  cases taken : values.contains key <;> simp

/-- An operation is registered exactly when its keys are free. -/
theorem register_ok_iff {compiler after : Compiler T} {index : Nat}
    {operation : WorktreeOperation T} :
    compiler.register crates index operation = .ok after ↔
      (∀ added ∈ inputEntry crates index operation,
        compiler.inputs.contains added.1 = false) ∧
      (∀ added ∈ outputEntry crates index operation,
        compiler.outputs.contains added.1 = false) ∧
      ⟨(operation.mentions.foldl (fun compiler path => compiler.registerPath crates path)
          compiler).paths,
        addEntry compiler.inputs (inputEntry crates index operation),
        addEntry compiler.outputs (outputEntry crates index operation)⟩ = after := by
  cases operation with
  | modify file =>
      simp only [register, modify, bind_ok_iff, insertInput_ok_iff, insertOutput_ok_iff]
      simp [inputEntry, outputEntry, WorktreeOperation.source, WorktreeOperation.target,
        WorktreeOperation.input, WorktreeOperation.output, WorktreeOperation.mentions, addEntry,
        registerPath, pure, Except.pure]
  | create file =>
      simp only [register, create, bind_ok_iff, insertOutput_ok_iff]
      simp [inputEntry, outputEntry, WorktreeOperation.source, WorktreeOperation.target,
        WorktreeOperation.input, WorktreeOperation.output, WorktreeOperation.mentions, addEntry,
        registerPath, pure, Except.pure]
  | delete file =>
      simp only [register, delete, bind_ok_iff, insertInput_ok_iff]
      simp [inputEntry, outputEntry, WorktreeOperation.source, WorktreeOperation.target,
        WorktreeOperation.input, WorktreeOperation.output, WorktreeOperation.mentions, addEntry,
        registerPath, pure, Except.pure]
  | rename file =>
      simp only [register, rename, bind_ok_iff, insertInput_ok_iff, insertOutput_ok_iff]
      simp [inputEntry, outputEntry, WorktreeOperation.source, WorktreeOperation.target,
        WorktreeOperation.input, WorktreeOperation.output, WorktreeOperation.mentions, addEntry,
        registerPath, pure, Except.pure]

/-- Every key is registered, under a spelling of it. -/
structure Named (crates : Crates T) (compiler : Compiler T) (mentioned : List String) :
    Prop where
  keyed : ∀ key path, compiler.paths[key]? = some path → crates.portablePathKey path = key
  known : ∀ key, compiler.paths[key]?.isSome = true ↔
    ∃ path ∈ mentioned, crates.portablePathKey path = key

theorem Named.registerPath {compiler : Compiler T} {mentioned : List String}
    (named : Named crates compiler mentioned) (path : String) :
    Named crates (compiler.registerPath crates path) (mentioned ++ [path]) := by
  have looked : ∀ key, (compiler.registerPath crates path).paths[key]? =
      if compare (crates.portablePathKey path) key = .eq ∧ crates.portablePathKey path ∉
        compiler.paths then some path else compiler.paths[key]? := fun key =>
    Std.TreeMap.getElem?_insertIfNew
  constructor
  · intro key found known
    rw [looked] at known
    split at known
    · next fresh =>
        cases known
        exact Std.LawfulEqCmp.eq_of_compare fresh.1
    · exact named.keyed key found known
  · intro key
    rw [looked]
    simp only [List.mem_append, List.mem_singleton, or_and_right, exists_or, exists_eq_left]
    rw [← named.known key]
    split
    · next fresh =>
        have same := Std.LawfulEqCmp.eq_of_compare fresh.1
        simp [same]
    · next taken =>
        constructor
        · exact Or.inl
        · rintro (old | rfl)
          · exact old
          · by_contra missing
            refine taken ⟨Std.ReflCmp.compare_self, fun member => missing ?_⟩
            exact Std.TreeMap.mem_iff_isSome_getElem?.mp member

theorem Named.registerPaths {compiler : Compiler T} {mentioned : List String}
    (named : Named crates compiler mentioned) (paths : List String) :
    Named crates (paths.foldl (fun compiler path => compiler.registerPath crates path) compiler)
      (mentioned ++ paths) := by
  induction paths generalizing compiler mentioned with
  | nil =>
      rw [List.append_nil]
      exact named
  | cons path rest ih =>
      have further := ih (named.registerPath path)
      rw [List.append_assoc, List.singleton_append] at further
      exact further

/-- What is registered once these entries and paths are in the maps. -/
structure Registered (crates : Crates T) (compiler : Compiler T)
    (consumed : List (String × InputEndpoint T)) (produced : List (String × OutputEndpoint T))
    (mentioned : List String) : Prop where
  inputs : Holds compiler.inputs consumed
  outputs : Holds compiler.outputs produced
  paths : Named crates compiler mentioned
  inputsOnce : (consumed.map Prod.fst).Nodup
  outputsOnce : (produced.map Prod.fst).Nodup

theorem registered_new : Registered crates (new : Compiler T) [] [] [] := by
  have empty : ∀ {α : Type} (key : String), ({} : KeyMap α)[key]? = none :=
    fun key => Std.TreeMap.getElem?_emptyc
  refine ⟨?_, ?_, ⟨?_, ?_⟩, List.nodup_nil, List.nodup_nil⟩
  · intro key value
    simp [new]
  · intro key value
    simp [new]
  · intro key path found
    cases (empty key).symm.trans found
  · intro key
    simp [new]

theorem nodup_entry {α : Type} {entries : List (String × α)} {entry : Option (String × α)} :
    ((entries ++ entry.toList).map Prod.fst).Nodup ↔
      (entries.map Prod.fst).Nodup ∧ ∀ added ∈ entry, added.1 ∉ entries.map Prod.fst := by
  cases entry with
  | none => simp
  | some added =>
      rw [Option.toList_some, List.map_append, List.map_singleton, ← List.concat_eq_append,
        List.nodup_concat]
      simp [and_comm]

/-- An operation is registered exactly when the entries stay distinct. -/
theorem Registered.register_iff {compiler : Compiler T} {inputs : List (String × InputEndpoint T)}
    {outputs : List (String × OutputEndpoint T)} {mentioned : List String}
    (registered : Registered crates compiler inputs outputs mentioned) {index : Nat}
    {operation : WorktreeOperation T} :
    (∃ after, compiler.register crates index operation = .ok after) ↔
      ((inputs ++ (inputEntry crates index operation).toList).map Prod.fst).Nodup ∧
        ((outputs ++ (outputEntry crates index operation).toList).map Prod.fst).Nodup := by
  have free_input : ∀ key, compiler.inputs.contains key = false ↔ key ∉ inputs.map Prod.fst := by
    intro key
    rw [← registered.inputs.contains key, Bool.not_eq_true]
  have free_output : ∀ key, compiler.outputs.contains key = false ↔
      key ∉ outputs.map Prod.fst := by
    intro key
    rw [← registered.outputs.contains key, Bool.not_eq_true]
  simp only [register_ok_iff, free_input, free_output, exists_and_left, exists_eq',
    nodup_entry, registered.inputsOnce, registered.outputsOnce, true_and, and_true]

theorem Registered.register {compiler after : Compiler T}
    {inputs : List (String × InputEndpoint T)} {outputs : List (String × OutputEndpoint T)}
    {mentioned : List String} (registered : Registered crates compiler inputs outputs mentioned)
    {index : Nat} {operation : WorktreeOperation T}
    (done : compiler.register crates index operation = .ok after) :
    Registered crates after (inputs ++ (inputEntry crates index operation).toList)
      (outputs ++ (outputEntry crates index operation).toList)
      (mentioned ++ operation.mentions) := by
  obtain ⟨inputsOnce, outputsOnce⟩ := registered.register_iff.mp ⟨after, done⟩
  obtain ⟨_, _, rfl⟩ := register_ok_iff.mp done
  refine ⟨registered.inputs.addEntry _ (nodup_entry.mp inputsOnce).2,
    registered.outputs.addEntry _ (nodup_entry.mp outputsOnce).2, ?_, inputsOnce, outputsOnce⟩
  have named := registered.paths.registerPaths operation.mentions
  exact ⟨named.keyed, named.known⟩

theorem Registered.registerAll_iff {compiler : Compiler T}
    {inputs : List (String × InputEndpoint T)} {outputs : List (String × OutputEndpoint T)}
    {mentioned : List String} (registered : Registered crates compiler inputs outputs mentioned)
    {index : Nat} {operations : List (WorktreeOperation T)} :
    (∃ after, compiler.registerAll crates index operations = .ok after) ↔
      ((inputs ++ entries (inputEntry crates) index operations).map Prod.fst).Nodup ∧
        ((outputs ++ entries (outputEntry crates) index operations).map Prod.fst).Nodup := by
  induction operations generalizing compiler inputs outputs mentioned index with
  | nil =>
      rw [entries, entries, List.append_nil, List.append_nil]
      constructor
      · intro _
        exact ⟨registered.inputsOnce, registered.outputsOnce⟩
      · intro _
        exact ⟨compiler, rfl⟩
  | cons operation rest ih =>
      rw [entries, entries, ← List.append_assoc, ← List.append_assoc]
      constructor
      · rintro ⟨after, done⟩
        rw [registerAll, bind_ok_iff] at done
        obtain ⟨next, first, further⟩ := done
        exact (ih (registered.register first)).mp ⟨after, further⟩
      · intro distinct
        have first : ∃ next, compiler.register crates index operation = .ok next := by
          rw [registered.register_iff]
          constructor
          · have all := distinct.1
            rw [List.map_append] at all
            exact all.of_append_left
          · have all := distinct.2
            rw [List.map_append] at all
            exact all.of_append_left
        obtain ⟨next, first⟩ := first
        obtain ⟨after, further⟩ := (ih (registered.register first)).mpr distinct
        refine ⟨after, ?_⟩
        rw [registerAll, bind_ok_iff]
        exact ⟨next, first, further⟩

theorem Registered.registerAll {compiler after : Compiler T}
    {inputs : List (String × InputEndpoint T)} {outputs : List (String × OutputEndpoint T)}
    {mentioned : List String} (registered : Registered crates compiler inputs outputs mentioned)
    {index : Nat} {operations : List (WorktreeOperation T)}
    (done : compiler.registerAll crates index operations = .ok after) :
    Registered crates after (inputs ++ entries (inputEntry crates) index operations)
      (outputs ++ entries (outputEntry crates) index operations)
      (mentioned ++ operations.flatMap WorktreeOperation.mentions) := by
  induction operations generalizing compiler inputs outputs mentioned index with
  | nil =>
      cases done
      simp only [entries, List.flatMap_nil, List.append_nil]
      exact registered
  | cons operation rest ih =>
      rw [Compiler.registerAll, bind_ok_iff] at done
      obtain ⟨next, first, further⟩ := done
      have all := ih (registered.register first) further
      rw [List.append_assoc, List.append_assoc, List.append_assoc] at all
      exact all

/-! ### The entries and the operations -/

theorem inputEntry_iff {index : Nat} {operation : WorktreeOperation T} {key : String}
    {input : InputEndpoint T} :
    inputEntry crates index operation = some (key, input) ↔
      ∃ path, operation.source = some path ∧ crates.portablePathKey path = key ∧
        operation.input index = some input := by
  cases operation <;>
    simp [inputEntry, WorktreeOperation.source, WorktreeOperation.input]

theorem outputEntry_iff {index : Nat} {operation : WorktreeOperation T} {key : String}
    {output : OutputEndpoint T} :
    outputEntry crates index operation = some (key, output) ↔
      ∃ path, operation.target = some path ∧ crates.portablePathKey path = key ∧
        operation.output index = some output := by
  cases operation <;>
    simp [outputEntry, WorktreeOperation.target, WorktreeOperation.output]

theorem mem_entries {α : Type} {entryOf : Nat → WorktreeOperation T → Option (String × α)}
    {index : Nat} {operations : List (WorktreeOperation T)} {entry : String × α} :
    entry ∈ entries entryOf index operations ↔
      ∃ offset operation, operations[offset]? = some operation ∧
        entryOf (index + offset) operation = some entry := by
  induction operations generalizing index with
  | nil => simp [entries]
  | cons operation rest ih =>
      rw [entries, List.mem_append, Option.mem_toList, ih]
      constructor
      · rintro (here | ⟨offset, later, found, made⟩)
        · exact ⟨0, operation, rfl, here⟩
        · refine ⟨offset + 1, later, found, ?_⟩
          rw [Nat.add_comm offset 1, ← Nat.add_assoc]
          exact made
      · rintro ⟨offset, later, found, made⟩
        cases offset with
        | zero =>
            cases found
            exact .inl made
        | succ offset =>
            refine .inr ⟨offset, later, found, ?_⟩
            rw [Nat.add_assoc, Nat.add_comm 1 offset]
            exact made

theorem inputEntries_keys (index : Nat) (operations : List (WorktreeOperation T)) :
    (entries (inputEntry crates) index operations).map Prod.fst =
      operations.filterMap fun operation => operation.source.map crates.portablePathKey := by
  induction operations generalizing index with
  | nil => rfl
  | cons operation rest ih =>
      rw [entries, List.map_append, ih, List.filterMap_cons]
      cases operation <;> rfl

theorem outputEntries_keys (index : Nat) (operations : List (WorktreeOperation T)) :
    (entries (outputEntry crates) index operations).map Prod.fst =
      operations.filterMap fun operation => operation.target.map crates.portablePathKey := by
  induction operations generalizing index with
  | nil => rfl
  | cons operation rest ih =>
      rw [entries, List.map_append, ih, List.filterMap_cons]
      cases operation <;> rfl

end Compiler

/-- What is picked is distinct exactly when no two places pick the same. -/
theorem nodup_filterMap_iff {α β : Type} {pick : α → Option β} {items : List α} :
    (items.filterMap pick).Nodup ↔
      ∀ (left right : Nat) first second picked,
        items[left]? = some first → items[right]? = some second →
        pick first = some picked → pick second = some picked → left = right := by
  unfold List.Nodup
  rw [List.pairwise_filterMap, List.pairwise_iff_getElem]
  constructor
  · intro distinct left right first second picked foundLeft foundRight pickedLeft pickedRight
    obtain ⟨leftBound, rfl⟩ := List.getElem?_eq_some_iff.mp foundLeft
    obtain ⟨rightBound, rfl⟩ := List.getElem?_eq_some_iff.mp foundRight
    rcases Nat.lt_trichotomy left right with below | same | above
    · exact absurd rfl (distinct left right leftBound rightBound below _ pickedLeft _ pickedRight)
    · exact same
    · exact absurd rfl (distinct right left rightBound leftBound above _ pickedRight _ pickedLeft)
  · intro once left right leftBound rightBound below picked pickedLeft other pickedRight same
    subst same
    have equal := once left right _ _ picked (List.getElem?_eq_getElem leftBound)
      (List.getElem?_eq_getElem rightBound) pickedLeft pickedRight
    omega

namespace Compiler

variable {crates : Crates T}

theorem inputEntries_nodup_iff {operations : List (WorktreeOperation T)} :
    ((entries (inputEntry crates) 0 operations).map Prod.fst).Nodup ↔
      ∀ key left right, Consumes crates operations left key →
        Consumes crates operations right key → left = right := by
  rw [inputEntries_keys, nodup_filterMap_iff]
  simp only [Option.map_eq_some_iff, Consumes]
  constructor
  · rintro once key left right ⟨first, path, foundLeft, pathLeft⟩
      ⟨second, other, foundRight, pathRight⟩
    exact once left right first second key foundLeft foundRight ⟨path, pathLeft⟩
      ⟨other, pathRight⟩
  · rintro once left right first second key foundLeft foundRight ⟨path, pathLeft⟩
      ⟨other, pathRight⟩
    exact once key left right ⟨first, path, foundLeft, pathLeft⟩
      ⟨second, other, foundRight, pathRight⟩

theorem outputEntries_nodup_iff {operations : List (WorktreeOperation T)} :
    ((entries (outputEntry crates) 0 operations).map Prod.fst).Nodup ↔
      ∀ key left right, Produces crates operations left key →
        Produces crates operations right key → left = right := by
  rw [outputEntries_keys, nodup_filterMap_iff]
  simp only [Option.map_eq_some_iff, Produces]
  constructor
  · rintro once key left right ⟨first, path, foundLeft, pathLeft⟩
      ⟨second, other, foundRight, pathRight⟩
    exact once left right first second key foundLeft foundRight ⟨path, pathLeft⟩
      ⟨other, pathRight⟩
  · rintro once left right first second key foundLeft foundRight ⟨path, pathLeft⟩
      ⟨other, pathRight⟩
    exact once key left right ⟨first, path, foundLeft, pathLeft⟩
      ⟨second, other, foundRight, pathRight⟩

/-! ### Roles that go together -/

theorem forM_ok_iff {ε α : Type} {items : List α} {body : α → Except ε Unit} :
    items.forM body = .ok () ↔ ∀ item ∈ items, body item = .ok () := by
  induction items with
  | nil =>
      constructor
      · intro _ item impossible
        cases impossible
      · intro _
        rfl
  | cons first rest ih =>
      change (body first >>= fun _ => rest.forM body) = .ok () ↔ _
      rw [bind_ok_iff, List.forall_mem_cons, ← ih]
      constructor
      · rintro ⟨⟨⟩, here, later⟩
        exact ⟨here, later⟩
      · rintro ⟨here, later⟩
        exact ⟨(), here, later⟩

theorem validateCrossRoles_ok_iff {inputs : KeyMap (InputEndpoint T)}
    {outputs : KeyMap (OutputEndpoint T)} {paths : KeyMap String}
    {consumed : List (String × InputEndpoint T)} {produced : List (String × OutputEndpoint T)}
    (holdsInputs : Holds inputs consumed) (holdsOutputs : Holds outputs produced) :
    validateCrossRoles inputs outputs paths = .ok () ↔
      ∀ key input output, (key, input) ∈ consumed → (key, output) ∈ produced →
        allowedRoles input output = true := by
  unfold validateCrossRoles
  rw [forM_ok_iff]
  constructor
  · intro each key input output consumes produces
    have here := each (key, input)
      (Std.TreeMap.mem_toList_iff_getElem?_eq_some.mpr ((holdsInputs key input).mpr consumes))
    dsimp only at here
    rw [(holdsOutputs key output).mpr produces] at here
    dsimp only at here
    by_contra forbidden
    rw [if_neg forbidden] at here
    cases here
  · rintro all ⟨key, input⟩ among
    have consumes := (holdsInputs key input).mp
      (Std.TreeMap.mem_toList_iff_getElem?_eq_some.mp among)
    dsimp only
    cases found : outputs[key]? with
    | none => rfl
    | some output =>
        exact if_pos (all key input output consumes ((holdsOutputs key output).mp found))

/-- The roles at the shared keys go together as the operations have it. -/
theorem allowedRoles_iff {left right : Nat} {consumer producer : WorktreeOperation T}
    {input : InputEndpoint T} {output : OutputEndpoint T}
    (consumes : consumer.input left = some input) (produces : producer.output right = some output) :
    allowedRoles input output = true ↔
      (left = right ∧ (∃ file, consumer = .modify file) ∧ ∃ file, producer = .modify file) ∨
        (∃ file, consumer = .rename file) ∧ ∃ file, producer = .rename file := by
  cases consumer <;> cases consumes <;> cases producer <;> cases produces <;>
    simp [allowedRoles]

theorem allowed_iff {operations : List (WorktreeOperation T)} :
    (∀ key input output, (key, input) ∈ entries (inputEntry crates) 0 operations →
      (key, output) ∈ entries (outputEntry crates) 0 operations →
        allowedRoles input output = true) ↔
      ∀ key left right, Consumes crates operations left key →
        Produces crates operations right key →
        (left = right ∧ ∃ file, operations[left]? = some (.modify file)) ∨
          (∃ file, operations[left]? = some (.rename file)) ∧
            ∃ file, operations[right]? = some (.rename file) := by
  constructor
  · rintro allowed key left right ⟨consumer, path, foundLeft, from_path, rfl⟩
      ⟨producer, other, foundRight, to_path, same⟩
    have consumes : ∃ input, consumer.input left = some input := by
      cases consumer <;> first | exact ⟨_, rfl⟩ | cases from_path
    have produces : ∃ output, producer.output right = some output := by
      cases producer <;> first | exact ⟨_, rfl⟩ | cases to_path
    obtain ⟨input, consumes⟩ := consumes
    obtain ⟨output, produces⟩ := produces
    have both := allowed (crates.portablePathKey path) input output
      (mem_entries.mpr ⟨left, consumer, foundLeft, by
        rw [Nat.zero_add]
        exact inputEntry_iff.mpr ⟨path, from_path, rfl, consumes⟩⟩)
      (mem_entries.mpr ⟨right, producer, foundRight, by
        rw [Nat.zero_add]
        exact outputEntry_iff.mpr ⟨other, to_path, same, produces⟩⟩)
    rcases (allowedRoles_iff consumes produces).mp both with
      ⟨rfl, ⟨file, rfl⟩, _⟩ | ⟨⟨file, rfl⟩, ⟨second, rfl⟩⟩
    · exact .inl ⟨rfl, file, foundLeft⟩
    · exact .inr ⟨⟨file, foundLeft⟩, second, foundRight⟩
  · intro compatible key input output consumed produced
    obtain ⟨left, consumer, foundLeft, enters⟩ := mem_entries.mp consumed
    obtain ⟨right, producer, foundRight, leaves⟩ := mem_entries.mp produced
    rw [Nat.zero_add] at enters leaves
    obtain ⟨path, from_path, same, consumes⟩ := inputEntry_iff.mp enters
    obtain ⟨other, to_path, equal, produces⟩ := outputEntry_iff.mp leaves
    rw [allowedRoles_iff consumes produces]
    rcases compatible key left right ⟨consumer, path, foundLeft, from_path, same⟩
      ⟨producer, other, foundRight, to_path, equal⟩ with
      ⟨rfl, file, found⟩ | ⟨⟨file, found⟩, second, arrives⟩
    · rw [foundLeft] at found foundRight
      cases found
      cases foundRight
      exact .inl ⟨rfl, ⟨file, rfl⟩, file, rfl⟩
    · rw [foundLeft] at found
      rw [foundRight] at arrives
      cases found
      cases arrives
      exact .inr ⟨⟨file, rfl⟩, second, rfl⟩

/-! ### One transition for each path -/

theorem mapM_ok_iff {ε α β : Type} {items : List α} {body : α → Except ε β} {results : List β} :
    items.mapM body = .ok results ↔
      List.Forall₂ (fun item result => body item = .ok result) items results := by
  induction items generalizing results with
  | nil =>
      rw [List.mapM_nil, List.forall₂_nil_left_iff]
      constructor
      · intro same
        cases same
        rfl
      · rintro rfl
        rfl
  | cons first rest ih =>
      rw [List.mapM_cons, bind_ok_iff]
      constructor
      · rintro ⟨result, here, further⟩
        obtain ⟨others, later, same⟩ := bind_ok_iff.mp further
        cases same
        exact .cons here (ih.mp later)
      · intro each
        cases each with
        | cons here later => exact ⟨_, here, bind_ok_iff.mpr ⟨_, ih.mpr later, rfl⟩⟩

theorem parseValidatedHash_ok_iff {value : String} {index : Nat} {hash : Sha256Hash} :
    parseValidatedHash value index = .ok hash ↔ Sha256Hash.parse value = some hash := by
  unfold parseValidatedHash
  cases Sha256Hash.parse value <;> simp

theorem plannedInput_ok_iff {operation : WorktreeOperation T} {index : Nat}
    {input : InputEndpoint T} (consumes : operation.input index = some input)
    {planned : PlannedInput} :
    plannedInput input = .ok planned ↔ PlansInput index operation planned := by
  constructor
  · intro made
    cases operation <;> cases consumes <;>
      obtain ⟨hash, parsed, same⟩ := bind_ok_iff.mp made <;> cases same <;>
      constructor <;> exact parseValidatedHash_ok_iff.mp parsed
  · intro plans
    cases plans <;> cases consumes <;>
      exact bind_ok_iff.mpr ⟨_, parseValidatedHash_ok_iff.mpr (by assumption), rfl⟩

theorem plannedOutput_ok_iff {operation : WorktreeOperation T} {index : Nat}
    {output : OutputEndpoint T} (produces : operation.output index = some output)
    {planned : PlannedOutput T} :
    plannedOutput output = .ok planned ↔ PlansOutput index operation planned := by
  cases operation with
  | modify file =>
      cases produces
      constructor
      · intro made
        cases made
        exact .modify
      · intro plans
        cases plans
        rfl
  | create file =>
      cases produces
      constructor
      · intro made
        cases made
        exact .create
      · intro plans
        cases plans
        rfl
  | delete file => cases produces
  | rename file =>
      cases produces
      constructor
      · intro made
        obtain ⟨hash, parsed, same⟩ := bind_ok_iff.mp made
        cases same
        exact .rename (parseValidatedHash_ok_iff.mp parsed)
      · intro plans
        cases plans with
        | rename parsed =>
            exact bind_ok_iff.mpr ⟨_, parseValidatedHash_ok_iff.mpr parsed, rfl⟩

/-- The transition says what the operations do at the key. -/
structure Tells (crates : Crates T) (operations : List (WorktreeOperation T)) (key : String)
    (transition : PathTransition T) : Prop where
  before : (transition.before = .absent ∧ ∀ index, ¬ Consumes crates operations index key) ∨
    ∃ index operation path, operations[index]? = some operation ∧ operation.source = some path ∧
      crates.portablePathKey path = key ∧ PlansInput index operation transition.before
  after : (transition.after = .absent ∧ ∀ index, ¬ Produces crates operations index key) ∨
    ∃ index operation path, operations[index]? = some operation ∧ operation.target = some path ∧
      crates.portablePathKey path = key ∧ PlansOutput index operation transition.after

theorem buildTransition_ok_iff {inputs : KeyMap (InputEndpoint T)}
    {outputs : KeyMap (OutputEndpoint T)} {key path : String} {transition : PathTransition T} :
    buildTransition inputs outputs key path = .ok transition ↔
      transition.path = path ∧
      ((inputs[key]? = none ∧ transition.before = .absent) ∨
        ∃ input, inputs[key]? = some input ∧ plannedInput input = .ok transition.before) ∧
      ((outputs[key]? = none ∧ transition.after = .absent) ∨
        ∃ output, outputs[key]? = some output ∧ plannedOutput output = .ok transition.after) := by
  have built : buildTransition inputs outputs key path = .ok transition ↔
      ∃ before, ((inputs[key]? = none ∧ before = .absent) ∨
          ∃ input, inputs[key]? = some input ∧ plannedInput input = .ok before) ∧
        ∃ after, ((outputs[key]? = none ∧ after = .absent) ∨
            ∃ output, outputs[key]? = some output ∧ plannedOutput output = .ok after) ∧
          PathTransition.mk path before after = transition := by
    unfold buildTransition
    cases inputs[key]? with
    | none => cases outputs[key]? <;> simp [bind_ok_iff, pure, Except.pure]
    | some input => cases outputs[key]? <;> simp [bind_ok_iff, pure, Except.pure]
  rw [built]
  constructor
  · rintro ⟨before, first, after, second, rfl⟩
    exact ⟨rfl, first, second⟩
  · rintro ⟨rfl, first, second⟩
    exact ⟨transition.before, first, transition.after, second, rfl⟩

/-- What is built at a key says what the operations do there. -/
theorem Registered.tells_iff {compiler : Compiler T} {operations : List (WorktreeOperation T)}
    {mentioned : List String}
    (registered : Registered crates compiler (entries (inputEntry crates) 0 operations)
      (entries (outputEntry crates) 0 operations) mentioned) {key path : String}
    {transition : PathTransition T} :
    buildTransition compiler.inputs compiler.outputs key path = .ok transition ↔
      transition.path = path ∧ Tells crates operations key transition := by
  have at_input : ∀ input, compiler.inputs[key]? = some input ↔
      ∃ (index : Nat) (operation : WorktreeOperation T) (source : String),
        operations[index]? = some operation ∧ operation.source = some source ∧
          crates.portablePathKey source = key ∧
        operation.input index = some input := by
    intro input
    rw [registered.inputs key input, mem_entries]
    simp only [Nat.zero_add, inputEntry_iff, exists_and_left]
  have at_output : ∀ output, compiler.outputs[key]? = some output ↔
      ∃ (index : Nat) (operation : WorktreeOperation T) (target : String),
        operations[index]? = some operation ∧ operation.target = some target ∧
          crates.portablePathKey target = key ∧
        operation.output index = some output := by
    intro output
    rw [registered.outputs key output, mem_entries]
    simp only [Nat.zero_add, outputEntry_iff, exists_and_left]
  rw [buildTransition_ok_iff]
  refine and_congr_right fun _ => ?_
  constructor
  · rintro ⟨before, after⟩
    constructor
    · rcases before with ⟨missing, absent⟩ | ⟨input, found, planned⟩
      · refine .inl ⟨absent, ?_⟩
        rintro index ⟨operation, source, listed, reads, same⟩
        obtain ⟨input, consumes⟩ : ∃ input, operation.input index = some input := by
          cases operation <;> first | exact ⟨_, rfl⟩ | cases reads
        rw [(at_input input).mpr ⟨index, operation, source, listed, reads, same, consumes⟩]
          at missing
        cases missing
      · obtain ⟨index, operation, source, listed, reads, same, consumes⟩ :=
          (at_input input).mp found
        exact .inr ⟨index, operation, source, listed, reads, same,
          (plannedInput_ok_iff consumes).mp planned⟩
    · rcases after with ⟨missing, absent⟩ | ⟨output, found, planned⟩
      · refine .inl ⟨absent, ?_⟩
        rintro index ⟨operation, target, listed, writes, same⟩
        obtain ⟨output, produces⟩ : ∃ output, operation.output index = some output := by
          cases operation <;> first | exact ⟨_, rfl⟩ | cases writes
        rw [(at_output output).mpr ⟨index, operation, target, listed, writes, same, produces⟩]
          at missing
        cases missing
      · obtain ⟨index, operation, target, listed, writes, same, produces⟩ :=
          (at_output output).mp found
        exact .inr ⟨index, operation, target, listed, writes, same,
          (plannedOutput_ok_iff produces).mp planned⟩
  · rintro ⟨before, after⟩
    constructor
    · rcases before with ⟨absent, unread⟩ | ⟨index, operation, source, listed, reads, same, plans⟩
      · refine .inl ⟨?_, absent⟩
        cases found : compiler.inputs[key]? with
        | none => rfl
        | some input =>
            obtain ⟨index, operation, source, listed, reads, same, _⟩ := (at_input input).mp found
            exact absurd ⟨operation, source, listed, reads, same⟩ (unread index)
      · obtain ⟨input, consumes⟩ : ∃ input, operation.input index = some input := by
          cases operation <;> first | exact ⟨_, rfl⟩ | cases reads
        exact .inr ⟨input, (at_input input).mpr
          ⟨index, operation, source, listed, reads, same, consumes⟩,
          (plannedInput_ok_iff consumes).mpr plans⟩
    · rcases after with ⟨absent, unwritten⟩ |
        ⟨index, operation, target, listed, writes, same, plans⟩
      · refine .inl ⟨?_, absent⟩
        cases found : compiler.outputs[key]? with
        | none => rfl
        | some output =>
            obtain ⟨index, operation, target, listed, writes, same, _⟩ :=
              (at_output output).mp found
            exact absurd ⟨operation, target, listed, writes, same⟩ (unwritten index)
      · obtain ⟨output, produces⟩ : ∃ output, operation.output index = some output := by
          cases operation <;> first | exact ⟨_, rfl⟩ | cases writes
        exact .inr ⟨output, (at_output output).mpr
          ⟨index, operation, target, listed, writes, same, produces⟩,
          (plannedOutput_ok_iff produces).mpr plans⟩

/-- With well formed hashes there is something to say of every key. -/
theorem tells_exists {operations : List (WorktreeOperation T)}
    (wellFormed : ∀ operation ∈ operations, operation.WellFormed) (key path : String) :
    ∃ transition : PathTransition T, transition.path = path ∧
      Tells crates operations key transition := by
  have before : ∃ before : PlannedInput,
      (before = .absent ∧ ∀ index, ¬ Consumes crates operations index key) ∨
        ∃ (index : Nat) (operation : WorktreeOperation T) (source : String),
          operations[index]? = some operation ∧ operation.source = some source ∧
            crates.portablePathKey source = key ∧
          PlansInput index operation before := by
    by_cases read : ∃ index, Consumes crates operations index key
    · obtain ⟨index, operation, source, listed, reads, same⟩ := read
      have formed := wellFormed operation (List.mem_of_getElem? listed)
      cases operation with
      | modify file =>
          obtain ⟨hash, parsed⟩ := formed _ rfl
          exact ⟨_, .inr ⟨index, _, source, listed, reads, same, .modify parsed⟩⟩
      | create file => cases reads
      | delete file =>
          obtain ⟨hash, parsed⟩ := formed _ rfl
          exact ⟨_, .inr ⟨index, _, source, listed, reads, same, .delete parsed⟩⟩
      | rename file =>
          obtain ⟨hash, parsed⟩ := formed _ rfl
          exact ⟨_, .inr ⟨index, _, source, listed, reads, same, .rename parsed⟩⟩
    · exact ⟨.absent, .inl ⟨rfl, not_exists.mp read⟩⟩
  have after : ∃ after : PlannedOutput T,
      (after = .absent ∧ ∀ index, ¬ Produces crates operations index key) ∨
        ∃ (index : Nat) (operation : WorktreeOperation T) (target : String),
          operations[index]? = some operation ∧ operation.target = some target ∧
            crates.portablePathKey target = key ∧
          PlansOutput index operation after := by
    by_cases written : ∃ index, Produces crates operations index key
    · obtain ⟨index, operation, target, listed, writes, same⟩ := written
      have formed := wellFormed operation (List.mem_of_getElem? listed)
      cases operation with
      | modify file => exact ⟨_, .inr ⟨index, _, target, listed, writes, same, .modify⟩⟩
      | create file => exact ⟨_, .inr ⟨index, _, target, listed, writes, same, .create⟩⟩
      | delete file => cases writes
      | rename file =>
          obtain ⟨hash, parsed⟩ := formed _ rfl
          exact ⟨_, .inr ⟨index, _, target, listed, writes, same, .rename parsed⟩⟩
    · exact ⟨.absent, .inl ⟨rfl, not_exists.mp written⟩⟩
  obtain ⟨before, first⟩ := before
  obtain ⟨after, second⟩ := after
  exact ⟨⟨path, before, after⟩, rfl, first, second⟩

/-- Only one item can be kept when all that are kept lie at one key. -/
theorem filter_eq_singleton {α β : Type} {items : List α} {place : α → β} {keep : α → Bool}
    {item : α} (distinct : (items.map place).Nodup) (among : item ∈ items)
    (kept : keep item = true)
    (only : ∀ other ∈ items, keep other = true → place other = place item) :
    items.filter keep = [item] := by
  have same : ∀ other ∈ items, keep other = true → other = item := fun other listed keeps =>
    List.inj_on_of_nodup_map distinct listed among (only other listed keeps)
  have all : ∀ other ∈ items.filter keep, other = item := by
    intro other listed
    rw [List.mem_filter] at listed
    exact same other listed.1 listed.2
  have once : (items.filter keep).Nodup := distinct.of_map.filter keep
  have listed : item ∈ items.filter keep := List.mem_filter.mpr ⟨among, kept⟩
  rw [List.eq_replicate_of_mem all] at once ⊢
  have short := List.nodup_replicate.mp once
  have long := List.length_pos_of_mem listed
  have single : (items.filter keep).length = 1 := by omega
  rw [single]
  rfl

theorem built_keys {compiler : Compiler T} {mentioned : List String}
    (named : Named crates compiler mentioned) {transitions : List (PathTransition T)}
    (spelled : List.Forall₂ (fun (entry : String × String) transition =>
      transition.path = entry.2) compiler.paths.toList transitions) :
    transitions.map (fun transition => crates.portablePathKey transition.path) =
      compiler.paths.toList.map Prod.fst := by
  have keyed : ∀ entry ∈ compiler.paths.toList, crates.portablePathKey entry.2 = entry.1 :=
    fun entry among => named.keyed entry.1 entry.2
      (Std.TreeMap.mem_toList_iff_getElem?_eq_some.mp among)
  generalize compiler.paths.toList = spellings at spelled keyed ⊢
  induction spelled with
  | nil => rfl
  | cons here later ih =>
      rw [List.map_cons, List.map_cons, here, keyed _ List.mem_cons_self,
        ih fun entry among => keyed entry (List.mem_cons_of_mem _ among)]

theorem mem_keys_iff {compiler : Compiler T} {mentioned : List String}
    (named : Named crates compiler mentioned) {key : String} :
    key ∈ compiler.paths.toList.map Prod.fst ↔
      ∃ path ∈ mentioned, crates.portablePathKey path = key := by
  rw [← named.known key, Option.isSome_iff_exists, List.mem_map]
  constructor
  · rintro ⟨⟨same, path⟩, among, rfl⟩
    exact ⟨path, Std.TreeMap.mem_toList_iff_getElem?_eq_some.mp among⟩
  · rintro ⟨path, found⟩
    exact ⟨(key, path), Std.TreeMap.mem_toList_iff_getElem?_eq_some.mpr found, rfl⟩

theorem mentioned_iff {operations : List (WorktreeOperation T)} {key : String} :
    (∃ path ∈ operations.flatMap WorktreeOperation.mentions,
        crates.portablePathKey path = key) ↔
      ∃ index, Consumes crates operations index key ∨ Produces crates operations index key := by
  simp only [List.mem_flatMap, WorktreeOperation.mem_mentions]
  constructor
  · rintro ⟨path, ⟨operation, among, reads | writes⟩, same⟩
    · obtain ⟨index, listed⟩ := List.getElem?_of_mem among
      exact ⟨index, .inl ⟨operation, path, listed, reads, same⟩⟩
    · obtain ⟨index, listed⟩ := List.getElem?_of_mem among
      exact ⟨index, .inr ⟨operation, path, listed, writes, same⟩⟩
  · rintro ⟨index, ⟨operation, path, listed, reads, same⟩ |
      ⟨operation, path, listed, writes, same⟩⟩
    · exact ⟨path, ⟨operation, List.mem_of_getElem? listed, .inl reads⟩, same⟩
    · exact ⟨path, ⟨operation, List.mem_of_getElem? listed, .inr writes⟩, same⟩

/-- What is said of every key once, in the order of the keys, loses nothing. -/
theorem lossless_of_tells {operations : List (WorktreeOperation T)}
    {transitions : List (PathTransition T)}
    (consumedOnce : ∀ key left right, Consumes crates operations left key →
      Consumes crates operations right key → left = right)
    (producedOnce : ∀ key left right, Produces crates operations left key →
      Produces crates operations right key → left = right)
    (increasing : (transitions.map fun transition =>
      crates.portablePathKey transition.path).Pairwise (· < ·))
    (mentioned : ∀ key, key ∈ transitions.map (fun transition =>
        crates.portablePathKey transition.path) ↔
      ∃ index, Consumes crates operations index key ∨ Produces crates operations index key)
    (tells : ∀ transition ∈ transitions,
      Tells crates operations (crates.portablePathKey transition.path) transition) :
    Lossless crates operations transitions := by
  have distinct : (transitions.map fun transition =>
      crates.portablePathKey transition.path).Nodup :=
    increasing.imp fun below => ne_of_lt below
  -- a side of an operation names the operation and stands at its key
  have of_input : ∀ transition ∈ transitions, ∀ index,
      transition.before.operation = some index → ∃ operation path,
        operations[index]? = some operation ∧ operation.source = some path ∧
          crates.portablePathKey path = crates.portablePathKey transition.path ∧
          PlansInput index operation transition.before := by
    intro transition among index named
    rcases (tells transition among).before with ⟨absent, _⟩ |
      ⟨owner, operation, path, listed, reads, same, plans⟩
    · rw [absent] at named
      cases named
    · rw [plans.operation_eq] at named
      cases named
      exact ⟨operation, path, listed, reads, same, plans⟩
  have of_output : ∀ transition ∈ transitions, ∀ index,
      transition.after.operation = some index → ∃ operation path,
        operations[index]? = some operation ∧ operation.target = some path ∧
          crates.portablePathKey path = crates.portablePathKey transition.path ∧
          PlansOutput index operation transition.after := by
    intro transition among index named
    rcases (tells transition among).after with ⟨absent, _⟩ |
      ⟨owner, operation, path, listed, writes, same, plans⟩
    · rw [absent] at named
      cases named
    · rw [plans.operation_eq] at named
      cases named
      exact ⟨operation, path, listed, writes, same, plans⟩
  constructor
  · exact increasing
  · exact mentioned
  · rintro transition among ⟨absentBefore, absentAfter⟩
    obtain ⟨index, consumes | produces⟩ := (mentioned _).mp (List.mem_map.mpr ⟨_, among, rfl⟩)
    · rcases (tells transition among).before with ⟨_, unread⟩ | ⟨_, _, _, _, _, _, plans⟩
      · exact unread index consumes
      · rw [absentBefore] at plans
        cases plans
    · rcases (tells transition among).after with ⟨_, unwritten⟩ | ⟨_, _, _, _, _, _, plans⟩
      · exact unwritten index produces
      · rw [absentAfter] at plans
        cases plans
  · intro index operation path listed reads
    have consumes : Consumes crates operations index (crates.portablePathKey path) :=
      ⟨operation, path, listed, reads, rfl⟩
    obtain ⟨transition, among, same⟩ := List.mem_map.mp ((mentioned _).mpr ⟨index, .inl consumes⟩)
    have plans : PlansInput index operation transition.before := by
      rcases (tells transition among).before with ⟨_, unread⟩ |
        ⟨owner, other, source, found, sourced, equal, plans⟩
      · rw [same] at unread
        exact absurd consumes (unread index)
      · have here := consumedOnce _ owner index
          ⟨other, source, found, sourced, equal.trans same⟩ consumes
        subst here
        rw [listed] at found
        cases found
        exact plans
    refine ⟨transition, ?_, same, plans⟩
    refine filter_eq_singleton distinct among ?_ ?_
    · exact decide_eq_true plans.operation_eq
    · intro other listedOther named
      obtain ⟨again, source, found, sourced, equal, _⟩ :=
        of_input other listedOther index (of_decide_eq_true named)
      rw [listed] at found
      cases found
      rw [reads] at sourced
      cases sourced
      rw [← equal, same]
  · intro index operation path listed writes
    have produces : Produces crates operations index (crates.portablePathKey path) :=
      ⟨operation, path, listed, writes, rfl⟩
    obtain ⟨transition, among, same⟩ := List.mem_map.mp ((mentioned _).mpr ⟨index, .inr produces⟩)
    have plans : PlansOutput index operation transition.after := by
      rcases (tells transition among).after with ⟨_, unwritten⟩ |
        ⟨owner, other, target, found, targeted, equal, plans⟩
      · rw [same] at unwritten
        exact absurd produces (unwritten index)
      · have here := producedOnce _ owner index
          ⟨other, target, found, targeted, equal.trans same⟩ produces
        subst here
        rw [listed] at found
        cases found
        exact plans
    refine ⟨transition, ?_, same, plans⟩
    refine filter_eq_singleton distinct among ?_ ?_
    · exact decide_eq_true plans.operation_eq
    · intro other listedOther named
      obtain ⟨again, target, found, targeted, equal, _⟩ :=
        of_output other listedOther index (of_decide_eq_true named)
      rw [listed] at found
      cases found
      rw [writes] at targeted
      cases targeted
      rw [← equal, same]
  · rintro transition among index (input | output)
    · obtain ⟨operation, _, listed, _⟩ := of_input transition among index input
      exact (List.getElem?_eq_some_iff.mp listed).1
    · obtain ⟨operation, _, listed, _⟩ := of_output transition among index output
      exact (List.getElem?_eq_some_iff.mp listed).1

theorem forall₂_exists {α β : Type} {relates : α → β → Prop} {items : List α}
    (each : ∀ item ∈ items, ∃ result, relates item result) :
    ∃ results, List.Forall₂ relates items results := by
  induction items with
  | nil => exact ⟨[], .nil⟩
  | cons first rest ih =>
      obtain ⟨result, here⟩ := each first List.mem_cons_self
      obtain ⟨results, later⟩ := ih fun item among => each item (List.mem_cons_of_mem _ among)
      exact ⟨result :: results, .cons here later⟩

theorem forall₂_mem_right {α β : Type} {relates : α → β → Prop} {items : List α}
    {results : List β} (each : List.Forall₂ relates items results) {result : β}
    (among : result ∈ results) : ∃ item ∈ items, relates item result := by
  induction each with
  | nil => cases among
  | cons here later ih =>
      rcases List.mem_cons.mp among with rfl | further
      · exact ⟨_, List.mem_cons_self, here⟩
      · obtain ⟨item, listed, relates⟩ := ih further
        exact ⟨item, List.mem_cons_of_mem _ listed, relates⟩

end Compiler

open Compiler

/-- The transitions are those of the paths the operations mention, in the order of
their keys. -/
theorem compilePlan_keys {plan : WorktreePlan T} {transitions : List (PathTransition T)}
    (compiled : compilePlan crates plan = .ok transitions) :
    (transitions.map fun transition => crates.portablePathKey transition.path).Pairwise (· < ·) ∧
    ∀ key, key ∈ transitions.map (fun transition => crates.portablePathKey transition.path) ↔
      ∃ index, Consumes crates plan.operations index key ∨
        Produces crates plan.operations index key := by
  unfold compilePlan finish at compiled
  simp only [bind_ok_iff] at compiled
  obtain ⟨compiler, done, ⟨⟩, _, made⟩ := compiled
  have registered : Registered crates compiler (entries (inputEntry crates) 0 plan.operations)
      (entries (outputEntry crates) 0 plan.operations)
      (plan.operations.flatMap WorktreeOperation.mentions) := registered_new.registerAll done
  have built : List.Forall₂ (fun (entry : String × String) (transition : PathTransition T) =>
      transition.path = entry.2) compiler.paths.toList transitions :=
    (mapM_ok_iff.mp made).imp fun entry transition here => (registered.tells_iff.mp here).1
  have keys := built_keys registered.paths built
  rw [keys]
  constructor
  · rw [List.pairwise_map]
    exact Std.TreeMap.ordered_keys_toList.imp fun below => compare_lt_iff_lt.mp below
  · intro key
    rw [mem_keys_iff registered.paths, mentioned_iff]

/-- Every transition of a compiled plan says what the operations do at its key. -/
theorem compilePlan_tells {plan : WorktreePlan T} {transitions : List (PathTransition T)}
    (compiled : compilePlan crates plan = .ok transitions) :
    ∀ transition ∈ transitions,
      Tells crates plan.operations (crates.portablePathKey transition.path) transition := by
  unfold compilePlan finish at compiled
  simp only [bind_ok_iff] at compiled
  obtain ⟨compiler, done, ⟨⟩, _, made⟩ := compiled
  have registered : Registered crates compiler (entries (inputEntry crates) 0 plan.operations)
      (entries (outputEntry crates) 0 plan.operations)
      (plan.operations.flatMap WorktreeOperation.mentions) := registered_new.registerAll done
  have built : List.Forall₂ (fun (entry : String × String) (transition : PathTransition T) =>
      transition.path = entry.2 ∧ Tells crates plan.operations entry.1 transition)
      compiler.paths.toList transitions :=
    (mapM_ok_iff.mp made).imp fun entry transition here => registered.tells_iff.mp here
  intro transition among
  obtain ⟨entry, listed, spelled, told⟩ := forall₂_mem_right built among
  have keyed := registered.paths.keyed entry.1 entry.2
    (Std.TreeMap.mem_toList_iff_getElem?_eq_some.mp listed)
  rw [spelled, keyed]
  exact told

/-- In a compiled plan no key is produced by two operations. -/
theorem compilePlan_once {plan : WorktreePlan T} {transitions : List (PathTransition T)}
    (compiled : compilePlan crates plan = .ok transitions) :
    ∀ key left right, Produces crates plan.operations left key →
      Produces crates plan.operations right key → left = right := by
  unfold compilePlan at compiled
  obtain ⟨compiler, done, _⟩ := bind_ok_iff.mp compiled
  exact outputEntries_nodup_iff.mp (registered_new.registerAll_iff.mp ⟨compiler, done⟩).2

/-- The operations compile exactly when their roles are consistent, and then
the transitions say all that the operations do and nothing else. -/
theorem compilePlan_exact (crates : Crates T) (plan : WorktreePlan T)
    (wellFormed : ∀ operation ∈ plan.operations, operation.WellFormed) :
    ((∃ transitions, compilePlan crates plan = .ok transitions) ↔
      RoleConsistent crates plan.operations) ∧
    ∀ transitions, compilePlan crates plan = .ok transitions →
      Lossless crates plan.operations transitions := by
  have consistent_iff : RoleConsistent crates plan.operations ↔
      (((entries (inputEntry crates) 0 plan.operations).map Prod.fst).Nodup ∧
        ((entries (outputEntry crates) 0 plan.operations).map Prod.fst).Nodup) ∧
      ∀ key input output, (key, input) ∈ entries (inputEntry crates) 0 plan.operations →
        (key, output) ∈ entries (outputEntry crates) 0 plan.operations →
          allowedRoles input output = true := by
    rw [inputEntries_nodup_iff, outputEntries_nodup_iff, allowed_iff]
    constructor
    · intro consistent
      exact ⟨⟨consistent.consumedOnce, consistent.producedOnce⟩, consistent.compatible⟩
    · rintro ⟨⟨consumedOnce, producedOnce⟩, compatible⟩
      exact ⟨consumedOnce, producedOnce, compatible⟩
  have fills : (∃ compiler, new.registerAll crates 0 plan.operations = .ok compiler) ↔
      ((entries (inputEntry crates) 0 plan.operations).map Prod.fst).Nodup ∧
        ((entries (outputEntry crates) 0 plan.operations).map Prod.fst).Nodup :=
    registered_new.registerAll_iff
  have filled : ∀ compiler, new.registerAll crates 0 plan.operations = .ok compiler →
      Registered crates compiler (entries (inputEntry crates) 0 plan.operations)
        (entries (outputEntry crates) 0 plan.operations)
        (plan.operations.flatMap WorktreeOperation.mentions) :=
    fun compiler done => registered_new.registerAll done
  constructor
  · unfold compilePlan finish
    simp only [bind_ok_iff]
    rw [consistent_iff]
    constructor
    · rintro ⟨transitions, compiler, done, ⟨⟩, crossed, _⟩
      have registered := filled compiler done
      exact ⟨fills.mp ⟨compiler, done⟩,
        (validateCrossRoles_ok_iff registered.inputs registered.outputs).mp crossed⟩
    · rintro ⟨distinct, allowed⟩
      obtain ⟨compiler, done⟩ := fills.mpr distinct
      have registered := filled compiler done
      have each : ∀ entry ∈ compiler.paths.toList, ∃ transition,
          buildTransition compiler.inputs compiler.outputs entry.1 entry.2 = .ok transition := by
        intro entry _
        obtain ⟨transition, told⟩ := tells_exists wellFormed entry.1 entry.2
        exact ⟨transition, registered.tells_iff.mpr told⟩
      obtain ⟨transitions, built⟩ := forall₂_exists each
      exact ⟨transitions, compiler, done, (),
        (validateCrossRoles_ok_iff registered.inputs registered.outputs).mpr allowed,
        mapM_ok_iff.mpr built⟩
  · intro transitions compiled
    obtain ⟨increasing, mentioned⟩ := compilePlan_keys compiled
    unfold compilePlan finish at compiled
    simp only [bind_ok_iff] at compiled
    obtain ⟨compiler, done, ⟨⟩, crossed, made⟩ := compiled
    have registered := filled compiler done
    have consistent := consistent_iff.mpr ⟨fills.mp ⟨compiler, done⟩,
      (validateCrossRoles_ok_iff registered.inputs registered.outputs).mp crossed⟩
    have built : List.Forall₂ (fun (entry : String × String) transition =>
        transition.path = entry.2 ∧ Tells crates plan.operations entry.1 transition)
        compiler.paths.toList transitions :=
      (mapM_ok_iff.mp made).imp fun entry transition here => registered.tells_iff.mp here
    refine lossless_of_tells consistent.consumedOnce consistent.producedOnce increasing mentioned ?_
    intro transition among
    obtain ⟨entry, listed, spelled, told⟩ := forall₂_mem_right built among
    have keyed := registered.paths.keyed entry.1 entry.2
      (Std.TreeMap.mem_toList_iff_getElem?_eq_some.mp listed)
    rw [spelled, keyed]
    exact told

/-- Two names trade places while a third is created and a fourth deleted. -/
def tradePlan : WorktreePlan Unit :=
  ⟨"trade", [
    .rename ⟨"b", "a", "000102030405060708090a0b0c0d0e0f101112131415161718191a1b1c1d1e1f", []⟩,
    .create ⟨"c", [1], ⟨false⟩⟩,
    .rename ⟨"a", "b", "000102030405060708090a0b0c0d0e0f101112131415161718191a1b1c1d1e1f", []⟩,
    .delete ⟨"D", "000102030405060708090a0b0c0d0e0f101112131415161718191a1b1c1d1e1f"⟩]⟩

theorem tradePlan_wellFormed : ∀ operation ∈ tradePlan.operations, operation.WellFormed := by
  have parses : ∃ hash, Sha256Hash.parse
      "000102030405060708090a0b0c0d0e0f101112131415161718191a1b1c1d1e1f" = some hash :=
    Option.isSome_iff_exists.mp (by decide +kernel)
  intro operation among text named
  simp only [tradePlan, List.mem_cons, List.not_mem_nil, or_false] at among
  rcases among with rfl | rfl | rfl | rfl <;> cases named <;> exact parses

theorem compilePlan_exact_trade :
    ((∃ transitions, compilePlan plainCrates tradePlan = .ok transitions) ↔
      RoleConsistent plainCrates tradePlan.operations) ∧
    ∃ transitions, compilePlan plainCrates tradePlan = .ok transitions ∧
      Lossless plainCrates tradePlan.operations transitions := by
  have exact := compilePlan_exact plainCrates tradePlan tradePlan_wellFormed
  refine ⟨exact.1, ?_⟩
  have compiles : (compilePlan plainCrates tradePlan).toOption.isSome = true := by
    decide +kernel
  cases made : compilePlan plainCrates tradePlan with
  | error error =>
      rw [made] at compiles
      cases compiles
  | ok transitions => exact ⟨transitions, rfl, exact.2 transitions made⟩

end

end Worktree
