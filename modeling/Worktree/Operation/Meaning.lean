import Worktree.CrashLogic.Assignment
import Worktree.Operation.Aliasing
import Worktree.Plan.Compiling
/-
What a plan means, and that its projection says just that.

A plan is a simultaneous assignment: every operation reads the worktree as it
was, whatever the others write. The projection arrives at it path by path, from
one transition for each portable key.
-/

namespace Worktree

open CrashLogic

/-! ### The meaning of a plan -/

/-- What a reader of a path gets. -/
structure Content where
  bytes : Bytes
  permissions : PortablePermissions
  deriving DecidableEq

/-- A worktree as a plan sees it. -/
abbrev Layout := String → Option Content

/-- What is found under every path, without following links. -/
def World.layout (host : Host) (root : FsRoot) (world : World) : Layout := fun path =>
  ((resolve host world root.dir (splitPath path)).bind world.look).map fun seen =>
    ⟨seen.inode.bytes, .fromPermissions seen.inode.mode⟩

section

variable {T : Type}

/-- The source with its edits, and how many of them were applied. -/
def edited (crates : Crates T) (options : WorktreeOptions) (source : Bytes) (edits : List T) :
    Option (Bytes × Nat) :=
  if edits.isEmpty then some (source, 0)
  else (crates.prepareEdits (applyLimits options) source edits).toOption.map fun prepared =>
    (prepared.bytes, prepared.edits)

def OutputRecipe.rendered (crates : Crates T) (options : WorktreeOptions) :
    OutputRecipe T → Option Bytes
  | .exact source => some source
  | .edited source edits =>
      (crates.prepareEdits (applyLimits options) source edits).toOption.map PreparedEdits.bytes

namespace WorktreeOperation

def kind : WorktreeOperation T → OperationKind
  | .modify _ => .modify
  | .create _ => .create
  | .delete _ => .delete
  | .rename _ => .rename

def edits : WorktreeOperation T → List T
  | .modify file => file.edits
  | .create _ => []
  | .delete _ => []
  | .rename file => file.edits

/-- What the operation starts from. -/
def origin (layout : Layout) : WorktreeOperation T → Option Content
  | .modify file => layout file.path
  | .create file => some ⟨file.contents, createPermissions file.permissions⟩
  | .delete _ => none
  | .rename file => layout file.from

/-- What the operation makes of the worktree as it was, with the number of its edits. -/
def outcome (crates : Crates T) (options : WorktreeOptions) (operation : WorktreeOperation T)
    (layout : Layout) : Option (Content × Nat) :=
  (operation.origin layout).bind fun start =>
    (edited crates options start.bytes operation.edits).map fun found =>
      (⟨found.1, start.permissions⟩, found.2)

def move (crates : Crates T) (options : WorktreeOptions) (operation : WorktreeOperation T) :
    Move String Content where
  source := operation.source
  target := operation.target
  value layout := (operation.outcome crates options layout).map Prod.fst

/-- The path a report names as the destination. -/
def destination : WorktreeOperation T → Option String
  | .modify _ => none
  | .create file => some file.path
  | .delete _ => none
  | .rename file => some file.to

/-- What a report says of the operation. -/
def describe (crates : Crates T) (options : WorktreeOptions) (before after : Layout)
    (operation : WorktreeOperation T) : OperationChange :=
  { kind := operation.kind
    sourcePath := operation.source
    destinationPath := operation.destination
    oldSha256 := (operation.source.bind before).map fun content => crates.sha256 content.bytes
    newSha256 := (operation.target.bind after).map fun content => crates.sha256 content.bytes
    bytesBefore := (operation.source.bind before).elim 0 fun content => content.bytes.length
    bytesAfter := (operation.target.bind after).elim 0 fun content => content.bytes.length
    editsApplied := (operation.outcome crates options before).elim 0 Prod.snd }

end WorktreeOperation

/-- The worktree after all operations of the plan at once. -/
def WorktreePlan.meaning (crates : Crates T) (options : WorktreeOptions) (plan : WorktreePlan T)
    (layout : Layout) : Layout :=
  assign (plan.operations.map fun operation => operation.move crates options) layout

/-! ### What a projection says -/

/-- The input is what the path holds. -/
def ProjectedInput.Holds (crates : Crates T) (held : Option Content) : ProjectedInput → Prop
  | .absent => held = none
  | .present source evidence => held = some ⟨source, evidence.permissions⟩ ∧
      evidence.sha256 = crates.sha256 source ∧ evidence.bytes = source.length

/-- The output is the content, with the recipe to write it. -/
structure ProjectedPresent.Yields (crates : Crates T) (options : WorktreeOptions)
    (content : Content) (output : ProjectedPresent T) : Prop where
  recipe : output.recipe.rendered crates options = some content.bytes
  sha256 : output.sha256 = crates.sha256 content.bytes
  bytes : output.bytes = content.bytes.length
  permissions : output.permissions = content.permissions

def ProjectedOutput.Holds (crates : Crates T) (options : WorktreeOptions) (held : Option Content) :
    ProjectedOutput T → Prop
  | .absent => held = none
  | .present output => ∃ content, held = some content ∧ output.Yields crates options content

/-- The projection names the paths of the plan, with what they hold and what the
plan makes of them, and reports every operation in order. -/
structure Foresees (crates : Crates T) (options : WorktreeOptions) (layout : Layout)
    (plan : WorktreePlan T) (projected : ProjectedPlan T) : Prop where
  named : ∀ path, path ∈ projected.paths.map ProjectedPath.path ↔
    ∃ operation ∈ plan.operations, operation.source = some path ∨ operation.target = some path
  increasing : (projected.paths.map fun path =>
    crates.portablePathKey path.path).Pairwise (· < ·)
  before : ∀ path ∈ projected.paths, path.before.Holds crates (layout path.path)
  after : ∀ path ∈ projected.paths,
    path.after.Holds crates options (plan.meaning crates options layout path.path)
  operation : projected.operation = plan.operation
  operations : projected.operations = plan.operations.map
    (WorktreeOperation.describe crates options layout (plan.meaning crates options layout))

/-! ### One output -/

variable {crates : Crates T} {options : WorktreeOptions} {layout : Layout}

/-- An output that is accepted is its source with the edits. -/
theorem presentOutput_ok {source : Bytes} {edits : List T} {permissions : PortablePermissions}
    {operationIndex : Nat} {path : String} {after : ProjectedOutput T}
    (projected : presentOutput crates options source edits permissions operationIndex path =
      .ok after) :
    ∃ output bytes, after = .present output ∧ output.Yields crates options ⟨bytes, permissions⟩ ∧
      edited crates options source edits = some (bytes, output.editCount) := by
  unfold presentOutput at projected
  split at projected
  · cases projected
  · split at projected
    · next plain =>
        cases projected
        exact ⟨_, source, rfl, ⟨rfl, rfl, rfl, rfl⟩, if_pos plain⟩
    · next changed =>
        cases prepares : crates.prepareEdits (applyLimits options) source edits with
        | error error =>
            rw [prepares] at projected
            cases projected
        | ok prepared =>
            rw [prepares] at projected
            cases projected
            refine ⟨_, prepared.bytes, rfl, ⟨?_, rfl, rfl, rfl⟩, ?_⟩
            · simp only [OutputRecipe.rendered, prepares]
              rfl
            · rw [edited, if_neg changed, prepares]
              rfl

/-! ### Sources and outputs by path -/

theorem getElem?_insert_some {α : Type} {values : KeyMap α} {key other : String} {value found : α}
    (held : (values.insert key value)[other]? = some found) :
    (key = other ∧ value = found) ∨ values[other]? = some found := by
  rw [Std.TreeMap.getElem?_insert] at held
  split at held
  · next same =>
      cases held
      exact .inl ⟨Std.LawfulEqCmp.eq_of_compare same, rfl⟩
  · exact .inr held

/-- A source that is found was there before, or comes from a snapshot of its path. -/
theorem gatherSources_mem {sources sources' : Sources} {total total' : Nat}
    {snapshots : List (SnapshotResult T)}
    (gathered : gatherSources options sources total snapshots = .ok (sources', total'))
    {path : String} {source : Bytes} {evidence : PresentEvidence}
    (found : sources'[path]? = some (source, evidence)) :
    sources[path]? = some (source, evidence) ∨ ∃ snapshot ∈ snapshots,
      snapshot.transition.path = path ∧ snapshot.before = .present source evidence := by
  induction snapshots generalizing sources total with
  | nil =>
      cases gathered
      exact .inl found
  | cons first rest ih =>
      simp only [gatherSources] at gathered
      cases held : first.before with
      | absent =>
          rw [held] at gathered
          rcases ih gathered with old | ⟨snapshot, among, named, same⟩
          · exact .inl old
          · exact .inr ⟨snapshot, List.mem_cons_of_mem _ among, named, same⟩
      | present contents shown =>
          rw [held] at gathered
          obtain ⟨sum, _, gathered⟩ := bind_ok_iff.mp gathered
          split at gathered
          · cases gathered
          · rcases ih gathered with old | ⟨snapshot, among, named, same⟩
            · rcases getElem?_insert_some old with ⟨named, same⟩ | older
              · cases same
                exact .inr ⟨first, List.mem_cons_self, named, held⟩
              · exact .inl older
            · exact .inr ⟨snapshot, List.mem_cons_of_mem _ among, named, same⟩

/-- An output that is found was there before, or is that of a projected path. -/
theorem gatherOutputs_mem {sources : Sources} {outputs outputs' : Outputs} {total total' : Nat}
    {snapshots : List (SnapshotResult T)} {paths : List (ProjectedPath T)}
    (gathered : gatherOutputs crates options sources outputs total snapshots =
      .ok (outputs', total', paths))
    {path : String} {found : Sha256Hash × Nat × Nat} (held : outputs'[path]? = some found) :
    outputs[path]? = some found ∨ ∃ projected ∈ paths, projected.path = path ∧
      ∃ output, projected.after = .present output ∧
        found = (output.sha256, output.bytes, output.editCount) := by
  induction snapshots generalizing outputs total paths with
  | nil =>
      cases gathered
      exact .inl held
  | cons first rest ih =>
      simp only [gatherOutputs] at gathered
      obtain ⟨after, _, gathered⟩ := bind_ok_iff.mp gathered
      have later : ∀ (outputs : Outputs) (total : Nat),
          (gatherOutputs crates options sources outputs total rest >>= fun result =>
            (pure (result.1, result.2.1,
              { stableIndex := first.stableIndex
                path := first.transition.path
                access := first.access
                before := first.before
                after } :: result.2.2) :
              Except WorktreeError (Outputs × Nat × List (ProjectedPath T)))) =
            .ok (outputs', total', paths) →
          (∃ projected ∈ paths, projected.path = first.transition.path ∧
            projected.after = after) ∧
          (outputs[path]? = some found ∨ ∃ projected ∈ paths, projected.path = path ∧
            ∃ output, projected.after = .present output ∧
              found = (output.sha256, output.bytes, output.editCount)) := by
        intro outputs total gathered
        obtain ⟨⟨outputs, total, others⟩, inner, same⟩ := bind_ok_iff.mp gathered
        cases same
        refine ⟨⟨_, List.mem_cons_self, rfl, rfl⟩, ?_⟩
        rcases ih inner with old | ⟨projected, among, holds⟩
        · exact .inl old
        · exact .inr ⟨projected, List.mem_cons_of_mem _ among, holds⟩
      cases after with
      | absent => exact (later _ _ gathered).2
      | present output =>
          obtain ⟨sum, _, gathered⟩ := bind_ok_iff.mp gathered
          split at gathered
          · cases gathered
          · obtain ⟨⟨projected, among, named, produces⟩, old | produced⟩ := later _ _ gathered
            · rcases getElem?_insert_some old with ⟨here, same⟩ | older
              · exact .inr ⟨projected, among, named.trans here, output, produces, same.symm⟩
              · exact .inl older
            · exact .inr produced

/-- Every operation that is reported was found to have its source and its output. -/
theorem changes_ok {sources : Sources} {outputs : Outputs} {index : Nat}
    {operations : List (WorktreeOperation T)} {listed : List OperationChange}
    (changed : changes sources outputs index operations = .ok listed) :
    List.Forall₂ (fun operation reported => ∃ index,
      change sources outputs index operation = .ok reported) operations listed := by
  induction operations generalizing index listed with
  | nil =>
      cases changed
      exact .nil
  | cons operation rest ih =>
      obtain ⟨first, here, changed⟩ := bind_ok_iff.mp changed
      obtain ⟨others, later, same⟩ := bind_ok_iff.mp changed
      cases same
      exact .cons ⟨index, here⟩ (ih later)

/-- A report says what was found at the source and at the target, and both were found. -/
theorem change_ok {sources : Sources} {outputs : Outputs} {index : Nat}
    {operation : WorktreeOperation T} {reported : OperationChange}
    (changed : change sources outputs index operation = .ok reported) :
    (∀ path, operation.source = some path → (sources[path]?).isSome) ∧
    (∀ path, operation.target = some path → (outputs[path]?).isSome) ∧
    reported =
      { kind := operation.kind
        sourcePath := operation.source
        destinationPath := operation.destination
        oldSha256 := (operation.source.bind fun path => sources[path]?).map fun found =>
          found.2.sha256
        newSha256 := (operation.target.bind fun path => outputs[path]?).map Prod.fst
        bytesBefore := (operation.source.bind fun path => sources[path]?).elim 0 fun found =>
          found.2.bytes
        bytesAfter := (operation.target.bind fun path => outputs[path]?).elim 0 fun found =>
          found.2.1
        editsApplied := (operation.target.bind fun path => outputs[path]?).elim 0 fun found =>
          found.2.2 } := by
  have reads : ∀ {path : String} {evidence : PresentEvidence},
      changeSource sources path index = .ok evidence →
        ∃ bytes, sources[path]? = some (bytes, evidence) := by
    intro path evidence read
    unfold changeSource at read
    split at read
    · next found =>
        cases read
        exact ⟨_, found⟩
    · cases read
  have writes : ∀ {path : String} {found : Sha256Hash × Nat × Nat},
      changeOutput outputs path index = .ok found → outputs[path]? = some found :=
    fun written => fromOption_ok_iff.mp written
  cases operation with
  | modify file =>
      obtain ⟨before, read, changed⟩ := bind_ok_iff.mp changed
      obtain ⟨found, written, same⟩ := bind_ok_iff.mp changed
      obtain ⟨bytes, read⟩ := reads read
      have written := writes written
      cases same
      refine ⟨?_, ?_, ?_⟩
      · rintro path ⟨⟩
        rw [read]
        rfl
      · rintro path ⟨⟩
        rw [written]
        rfl
      · simp only [WorktreeOperation.source, WorktreeOperation.target, Option.bind_some, read,
          written]
        rfl
  | create file =>
      obtain ⟨found, written, same⟩ := bind_ok_iff.mp changed
      have written := writes written
      cases same
      refine ⟨fun path impossible => (by cases impossible), ?_, ?_⟩
      · rintro path ⟨⟩
        rw [written]
        rfl
      · simp only [WorktreeOperation.source, WorktreeOperation.target, Option.bind_some, written]
        rfl
  | delete file =>
      obtain ⟨before, read, same⟩ := bind_ok_iff.mp changed
      obtain ⟨bytes, read⟩ := reads read
      cases same
      refine ⟨?_, fun path impossible => (by cases impossible), ?_⟩
      · rintro path ⟨⟩
        rw [read]
        rfl
      · simp only [WorktreeOperation.source, WorktreeOperation.target, Option.bind_some, read]
        rfl
  | rename file =>
      obtain ⟨before, read, changed⟩ := bind_ok_iff.mp changed
      obtain ⟨found, written, same⟩ := bind_ok_iff.mp changed
      obtain ⟨bytes, read⟩ := reads read
      have written := writes written
      cases same
      refine ⟨?_, ?_, ?_⟩
      · rintro path ⟨⟩
        rw [read]
        rfl
      · rintro path ⟨⟩
        rw [written]
        rfl
      · simp only [WorktreeOperation.source, WorktreeOperation.target, Option.bind_some, read,
          written]
        rfl

/-! ### From transitions to the meaning -/

/-- What is assembled from the transitions of a plan, path by path. -/
structure Assembled (crates : Crates T) (options : WorktreeOptions) (layout : Layout)
    (plan : WorktreePlan T) (transitions : List (PathTransition T)) (sources : Sources)
    (outputs : Outputs) (projected : ProjectedPlan T) : Prop where
  compiled : compilePlan crates plan = .ok transitions
  named : List.Forall₂ (fun transition path => path.path = transition.path) transitions
    projected.paths
  before : ∀ path ∈ projected.paths, path.before.Holds crates (layout path.path)
  after : ∀ path ∈ projected.paths, ∃ transition ∈ transitions, path.path = transition.path ∧
    projectAfter crates options transition.after path.before sources = .ok path.after
  supplied : ∀ path source evidence, sources[path]? = some (source, evidence) →
    ∃ item ∈ projected.paths, item.path = path ∧ item.before = .present source evidence
  produced : ∀ path found, outputs[path]? = some found →
    ∃ item ∈ projected.paths, item.path = path ∧ ∃ output, item.after = .present output ∧
      found = (output.sha256, output.bytes, output.editCount)
  listed : changes sources outputs 0 plan.operations = .ok projected.operations
  operation : projected.operation = plan.operation

namespace Assembled

variable {plan : WorktreePlan T} {transitions : List (PathTransition T)} {sources : Sources}
  {outputs : Outputs} {projected : ProjectedPlan T}

theorem names (assembled : Assembled crates options layout plan transitions sources outputs
    projected) : projected.paths.map ProjectedPath.path = transitions.map PathTransition.path := by
  have named := assembled.named
  rw [← List.forall₂_eq_eq_eq, List.forall₂_map_left_iff, List.forall₂_map_right_iff]
  exact named.flip

/-- A key has one spelling in a plan. -/
theorem spelled (assembled : Assembled crates options layout plan transitions sources outputs
    projected) {first second : String} (one : first ∈ projected.paths.map ProjectedPath.path)
    (other : second ∈ projected.paths.map ProjectedPath.path)
    (same : crates.portablePathKey first = crates.portablePathKey second) : first = second := by
  have increasing := (compilePlan_keys assembled.compiled).1
  have distinct := increasing.imp fun below => ne_of_lt below
  rw [assembled.names] at one other
  obtain ⟨left, among, rfl⟩ := List.mem_map.mp one
  obtain ⟨right, among', rfl⟩ := List.mem_map.mp other
  rw [List.inj_on_of_nodup_map distinct among among' same]

/-- Every operation of an assembled plan is reported. -/
theorem reported (assembled : Assembled crates options layout plan transitions sources outputs
    projected) {operation : WorktreeOperation T} (among : operation ∈ plan.operations) :
    ∃ index found, change sources outputs index operation = .ok found := by
  obtain ⟨found, _, index, changed⟩ :=
    Compiler.forall₂_mem_right (changes_ok assembled.listed).flip among
  exact ⟨index, found, changed⟩

/-- What an operation reads is there. -/
theorem reads (assembled : Assembled crates options layout plan transitions sources outputs
    projected) {operation : WorktreeOperation T} (among : operation ∈ plan.operations)
    {path : String} (reads : operation.source = some path) :
    ∃ source evidence, sources[path]? = some (source, evidence) ∧
      (ProjectedInput.present source evidence).Holds crates (layout path) ∧
      path ∈ projected.paths.map ProjectedPath.path := by
  obtain ⟨index, found, changed⟩ := assembled.reported among
  obtain ⟨⟨source, evidence⟩, held⟩ :=
    Option.isSome_iff_exists.mp ((change_ok changed).1 path reads)
  obtain ⟨item, listed, rfl, present⟩ := assembled.supplied path source evidence held
  refine ⟨source, evidence, held, ?_, List.mem_map_of_mem listed⟩
  have holds := assembled.before item listed
  rw [present] at holds
  exact holds

/-- What an operation writes is the output of the path it names. -/
theorem writes (assembled : Assembled crates options layout plan transitions sources outputs
    projected) {operation : WorktreeOperation T} (among : operation ∈ plan.operations)
    {path : String} (writes : operation.target = some path) :
    ∃ item ∈ projected.paths, item.path = path ∧ ∃ output, item.after = .present output ∧
      outputs[path]? = some (output.sha256, output.bytes, output.editCount) := by
  obtain ⟨index, found, changed⟩ := assembled.reported among
  obtain ⟨held, written⟩ := Option.isSome_iff_exists.mp ((change_ok changed).2.1 path writes)
  obtain ⟨item, listed, named, output, present, rfl⟩ := assembled.produced path held written
  exact ⟨item, listed, named, output, present, written⟩

/-- The output of a path is what the operation that writes it makes of the worktree. -/
theorem makes (assembled : Assembled crates options layout plan transitions sources outputs
    projected) {transition : PathTransition T} {item : ProjectedPath T} {index : Nat}
    {operation : WorktreeOperation T} (listed : item ∈ projected.paths)
    (plans : PlansOutput index operation transition.after)
    (writes : operation.target = some item.path)
    (after : projectAfter crates options transition.after item.before sources = .ok item.after) :
    ∃ output content, item.after = .present output ∧ output.Yields crates options content ∧
      operation.outcome crates options layout = some (content, output.editCount) := by
  have concludes : ∀ {source : Bytes} {edits : List T} {permissions : PortablePermissions}
      {name : String}, presentOutput crates options source edits permissions index name =
        .ok item.after → operation.origin layout = some ⟨source, permissions⟩ →
      operation.edits = edits → ∃ output content, item.after = .present output ∧
        output.Yields crates options content ∧
        operation.outcome crates options layout = some (content, output.editCount) := by
    intro source edits permissions name made starts same
    obtain ⟨output, bytes, present, yields, applied⟩ := presentOutput_ok made
    refine ⟨output, ⟨bytes, permissions⟩, present, yields, ?_⟩
    simp only [WorktreeOperation.outcome, starts, same, Option.bind_some, applied, Option.map_some]
  generalize planned : transition.after = output at plans after
  cases plans with
  | modify =>
      rename_i file
      simp only [projectAfter] at after
      have holds := assembled.before item listed
      have named : file.path = item.path := Option.some.inj writes
      cases held : item.before with
      | absent =>
          rw [held] at after
          cases after
      | present source evidence =>
          rw [held] at after holds
          rw [← named] at holds
          exact concludes after holds.1 rfl
  | create => exact concludes after rfl rfl
  | rename parsed =>
      rename_i file hash
      simp only [projectAfter] at after
      split at after
      · cases after
      · next contents evidence found =>
          obtain ⟨source, among, named, present⟩ := assembled.supplied _ _ _ found
          have holds := assembled.before source among
          rw [named, present] at holds
          exact concludes after holds.1 rfl

/-- Which operation an output is of. -/
theorem made (assembled : Assembled crates options layout plan transitions sources outputs
    projected) {item : ProjectedPath T} (listed : item ∈ projected.paths) :
    (item.after = .absent ∧ ∀ operation ∈ plan.operations, operation.target ≠ some item.path) ∨
      ∃ operation ∈ plan.operations, operation.target = some item.path ∧
        ∃ output content, item.after = .present output ∧ output.Yields crates options content ∧
          operation.outcome crates options layout = some (content, output.editCount) := by
  obtain ⟨transition, among, named, after⟩ := assembled.after item listed
  rcases (compilePlan_tells assembled.compiled transition among).after with
    ⟨absent, unwritten⟩ | ⟨index, operation, target, indexed, writes, same, plans⟩
  · rw [absent] at after
    have gone : item.after = .absent := (Except.ok.inj after).symm
    refine .inl ⟨gone, fun operation mentioned writes => ?_⟩
    obtain ⟨index, indexed⟩ := List.mem_iff_getElem?.mp mentioned
    exact unwritten index ⟨operation, item.path, indexed, writes, by rw [named]⟩
  · have mentioned := List.mem_of_getElem? indexed
    obtain ⟨other, listed', spelled, _⟩ := assembled.writes mentioned writes
    have path : target = item.path := by
      apply assembled.spelled (spelled ▸ List.mem_map_of_mem listed') (List.mem_map_of_mem listed)
      rw [same, named]
    rw [path] at writes
    exact .inr ⟨operation, mentioned, writes, assembled.makes listed plans writes after⟩

/-- No two operations of an assembled plan write to one path. -/
theorem once (assembled : Assembled crates options layout plan transitions sources outputs
    projected) :
    WritesOnce (plan.operations.map fun operation => operation.move crates options) := by
  unfold WritesOnce
  rw [List.pairwise_map, List.pairwise_iff_getElem]
  intro first second bound bound' before path one other
  have produces : ∀ (index : Nat) (bound : index < plan.operations.length),
      plan.operations[index].target = some path →
        Produces crates plan.operations index (crates.portablePathKey path) :=
    fun index bound writes => ⟨_, path, List.getElem?_eq_getElem bound, writes, rfl⟩
  have same := compilePlan_once assembled.compiled _ _ _ (produces first bound one)
    (produces second bound' other)
  omega

/-- Only one operation writes to a path. -/
theorem once_target (assembled : Assembled crates options layout plan transitions sources outputs
    projected) {first second : WorktreeOperation T} (among : first ∈ plan.operations)
    (among' : second ∈ plan.operations) {path : String} (one : first.target = some path)
    (other : second.target = some path) : first = second := by
  obtain ⟨left, indexed⟩ := List.mem_iff_getElem?.mp among
  obtain ⟨right, indexed'⟩ := List.mem_iff_getElem?.mp among'
  cases compilePlan_once assembled.compiled _ left right ⟨first, path, indexed, one, rfl⟩
    ⟨second, path, indexed', other, rfl⟩
  exact Option.some.inj (indexed.symm.trans indexed')

/-- Where an operation writes, the plan leaves what the operation makes. -/
theorem meaning_target (assembled : Assembled crates options layout plan transitions sources
    outputs projected) {operation : WorktreeOperation T} (among : operation ∈ plan.operations)
    {path : String} (writes : operation.target = some path) :
    plan.meaning crates options layout path =
      (operation.outcome crates options layout).map Prod.fst :=
  assign_target assembled.once (List.mem_map_of_mem among) writes

/-- The output of every path is what the plan leaves there. -/
theorem after_holds (assembled : Assembled crates options layout plan transitions sources outputs
    projected) {item : ProjectedPath T} (listed : item ∈ projected.paths) :
    item.after.Holds crates options (plan.meaning crates options layout item.path) := by
  rcases assembled.made listed with
    ⟨absent, unwritten⟩ | ⟨operation, mentioned, writes, output, content, present, yields, makes⟩
  · rw [absent]
    have keyed := (compilePlan_keys assembled.compiled).2 (crates.portablePathKey item.path)
    obtain ⟨transition, among, named, _⟩ := assembled.after item listed
    obtain ⟨index, reads | writes⟩ := keyed.mp (List.mem_map.mpr ⟨transition, among, by rw [named]⟩)
    · obtain ⟨operation, source, indexed, reads, same⟩ := reads
      have mentioned := List.mem_of_getElem? indexed
      obtain ⟨_, _, _, _, known⟩ := assembled.reads mentioned reads
      cases assembled.spelled known (List.mem_map_of_mem listed) same
      apply assign_source _ (List.mem_map_of_mem mentioned) reads
      intro move moves
      obtain ⟨other, among', rfl⟩ := List.mem_map.mp moves
      exact unwritten other among'
    · obtain ⟨operation, target, indexed, writes, same⟩ := writes
      have mentioned := List.mem_of_getElem? indexed
      obtain ⟨other, listed', spelled, _⟩ := assembled.writes mentioned writes
      have path : target = item.path :=
        assembled.spelled (spelled ▸ List.mem_map_of_mem listed') (List.mem_map_of_mem listed) same
      exact absurd (path ▸ writes) (unwritten operation mentioned)
  · rw [present, assembled.meaning_target mentioned writes, makes]
    exact ⟨content, rfl, yields⟩

/-- A report describes its operation. -/
theorem describes (assembled : Assembled crates options layout plan transitions sources outputs
    projected) {operation : WorktreeOperation T} (among : operation ∈ plan.operations)
    {index : Nat} {reported : OperationChange}
    (changed : change sources outputs index operation = .ok reported) :
    reported = operation.describe crates options layout (plan.meaning crates options layout) := by
  have read : (operation.source.bind fun path => sources[path]?).map
      (fun found => (found.2.sha256, found.2.bytes)) =
      (operation.source.bind layout).map
        fun content => (crates.sha256 content.bytes, content.bytes.length) := by
    cases reads : operation.source with
    | none => rfl
    | some path =>
        obtain ⟨source, evidence, held, ⟨shows, hash, size⟩, _⟩ := assembled.reads among reads
        simp only [Option.bind_some, held, shows, Option.map_some, hash, size]
  have written : (operation.target.bind fun path => outputs[path]?) =
      (operation.outcome crates options layout).map
        fun found => (crates.sha256 found.1.bytes, found.1.bytes.length, found.2) := by
    cases writes : operation.target with
    | none => cases operation <;> first | rfl | cases writes
    | some path =>
        obtain ⟨item, listed, rfl, output, present, held⟩ := assembled.writes among writes
        rcases assembled.made listed with
          ⟨absent, _⟩ | ⟨other, mentioned, writes', output', content, present', yields, makes⟩
        · rw [present] at absent
          cases absent
        · have same : other = operation := assembled.once_target mentioned among writes' writes
          subst same
          rw [present] at present'
          cases present'
          simp only [Option.bind_some, held, makes, Option.map_some, yields.sha256, yields.bytes]
  have target : operation.target.bind (plan.meaning crates options layout) =
      (operation.outcome crates options layout).map Prod.fst := by
    cases writes : operation.target with
    | none => cases operation <;> first | rfl | cases writes
    | some path => exact assembled.meaning_target among writes
  rw [(change_ok changed).2.2, WorktreeOperation.describe, target, written]
  cases sought : operation.source.bind fun path => sources[path]? with
  | none =>
      rw [sought] at read
      have missing : operation.source.bind layout = none := by simpa using read.symm
      rw [missing]
      cases operation.outcome crates options layout <;> rfl
  | some found =>
      rw [sought] at read
      cases held : operation.source.bind layout with
      | none =>
          rw [held] at read
          cases read
      | some content =>
          rw [held] at read
          simp only [Option.map_some, Option.some.injEq, Prod.mk.injEq] at read
          obtain ⟨hash, size⟩ := read
          cases operation.outcome crates options layout <;>
            simp only [Option.map_some, Option.map_none, Option.elim_some, Option.elim_none, hash,
              size]

/-- Assembling a plan says what the plan means. -/
theorem foresees (assembled : Assembled crates options layout plan transitions sources outputs
    projected) : Foresees crates options layout plan projected where
  named := by
    intro path
    constructor
    · intro known
      obtain ⟨item, listed, rfl⟩ := List.mem_map.mp known
      obtain ⟨transition, among, named, _⟩ := assembled.after item listed
      have keyed := (compilePlan_keys assembled.compiled).2 (crates.portablePathKey item.path)
      obtain ⟨index, ⟨operation, source, indexed, reads, same⟩ |
        ⟨operation, target, indexed, writes, same⟩⟩ :=
        keyed.mp (List.mem_map.mpr ⟨transition, among, by rw [named]⟩)
      · have mentioned := List.mem_of_getElem? indexed
        obtain ⟨_, _, _, _, there⟩ := assembled.reads mentioned reads
        exact ⟨operation, mentioned, .inl (assembled.spelled there known same ▸ reads)⟩
      · have mentioned := List.mem_of_getElem? indexed
        obtain ⟨other, there, named', _⟩ := assembled.writes mentioned writes
        have spelled := assembled.spelled (named' ▸ List.mem_map_of_mem there) known same
        exact ⟨operation, mentioned, .inr (spelled ▸ writes)⟩
    · rintro ⟨operation, mentioned, reads | writes⟩
      · obtain ⟨_, _, _, _, there⟩ := assembled.reads mentioned reads
        exact there
      · obtain ⟨item, listed, rfl, _⟩ := assembled.writes mentioned writes
        exact List.mem_map_of_mem listed
  increasing := by
    have keys := congrArg (List.map crates.portablePathKey) assembled.names
    rw [List.map_map, List.map_map] at keys
    exact keys ▸ (compilePlan_keys assembled.compiled).1
  before := assembled.before
  after _ listed := assembled.after_holds listed
  operation := assembled.operation
  operations := by
    have reported := (List.forall₂_and_left _ _).mpr
      ⟨fun _ among => among, changes_ok assembled.listed⟩
    rw [← List.forall₂_eq_eq_eq, List.forall₂_map_right_iff]
    refine reported.flip.imp fun found operation both => ?_
    obtain ⟨among, index, changed⟩ := both
    exact assembled.describes among changed

end Assembled

/-! ### The whole projection -/

variable {host : Host} {weather : Weather} {world : World} {root : FsRoot}

/-- A snapshot says what its path holds. -/
theorem Leads.holds {item : PathTransition T × Nat} {job : SnapshotJob T}
    {snapshot : SnapshotResult T} (leads : Leads host world root item job)
    (snaps : Snaps crates host options world job snapshot) :
    snapshot.transition = item.1 ∧
      snapshot.before.Holds crates (world.layout host root item.1.path) := by
  refine ⟨snaps.transition.trans leads.transition, ?_⟩
  have observes := snaps.observes
  rw [snaps.access] at observes
  unfold World.layout
  rw [leads.resolves, Option.bind_some]
  cases found : snapshot.before with
  | absent =>
      rw [found] at observes
      rw [show world.look (job.access.slot host) = none from observes]
      rfl
  | present source evidence =>
      rw [found] at observes
      obtain ⟨seen, shows, _, _, rfl, rfl⟩ := observes
      rw [shows]
      exact ⟨rfl, rfl, rfl⟩

/-- What is assembled from snapshots that lead to their paths. -/
theorem assembled_of_leads {plan : WorktreePlan T} {transitions : List (PathTransition T)}
    {jobs : List (SnapshotJob T)} {snapshots : List (SnapshotResult T)}
    {projected : ProjectedPlan T} (compiled : compilePlan crates plan = .ok transitions)
    (led : List.Forall₂ (Leads host world root) (transitions.zipIdx 0) jobs)
    (snapped : List.Forall₂ (Snaps crates host options world) jobs snapshots)
    (assembled : assemble crates plan snapshots options = .ok projected) :
    ∃ sources outputs, Assembled crates options (world.layout host root) plan transitions sources
      outputs projected := by
  obtain ⟨sources, _, outputs, _, gathered, produced, listed, operation⟩ := assemble_ok assembled
  have paired : List.Forall₂ (fun (transition : PathTransition T) (item : PathTransition T × Nat) =>
      transition = item.1) transitions (transitions.zipIdx 0) := by
    rw [← List.forall₂_map_right_iff, List.zipIdx_map_fst]
    exact List.forall₂_same.mpr fun _ _ => rfl
  have held : List.Forall₂ (fun (transition : PathTransition T) (snapshot : SnapshotResult T) =>
      snapshot.transition = transition ∧
        snapshot.before.Holds crates (world.layout host root transition.path))
      transitions snapshots := by
    have shown := forall₂_compose led snapped fun item job snapshot leads snaps => leads.holds snaps
    exact forall₂_compose paired shown fun transition item snapshot same holds => same ▸ holds
  have made := gatherOutputs_ok produced
  have both : List.Forall₂ (fun (transition : PathTransition T) (path : ProjectedPath T) =>
      path.path = transition.path ∧
        path.before.Holds crates (world.layout host root path.path) ∧
        projectAfter crates options transition.after path.before sources = .ok path.after)
      transitions projected.paths := by
    refine forall₂_compose held made fun transition snapshot path holds assembles => ?_
    obtain ⟨rfl, holds⟩ := holds
    rw [← assembles.named, ← assembles.before] at holds
    exact ⟨assembles.named, holds, assembles.before ▸ assembles.after⟩
  refine ⟨sources, outputs, ?_⟩
  constructor
  case compiled => exact compiled
  case named => exact both.imp fun _ _ each => each.1
  case before =>
    intro path among
    obtain ⟨_, _, _, holds, _⟩ := Compiler.forall₂_mem_right both among
    exact holds
  case after =>
    intro path among
    obtain ⟨transition, listed, named, _, after⟩ := Compiler.forall₂_mem_right both among
    exact ⟨transition, listed, named, after⟩
  case supplied =>
    intro path source evidence found
    rcases gatherSources_mem gathered found with impossible | ⟨snapshot, among, named, present⟩
    · simp at impossible
    · obtain ⟨item, listed, assembles⟩ := Compiler.forall₂_mem_right made.flip among
      exact ⟨item, listed, assembles.named.trans named, assembles.before.trans present⟩
  case produced =>
    intro path found written
    rcases gatherOutputs_mem produced written with impossible | there
    · simp at impossible
    · exact there
  case listed => exact listed
  case operation => exact operation

/-- Whatever its workers do, a projection that is accepted says what the plan
means on the worktree as it is. -/
theorem project_foresees (plan : WorktreePlan T) :
    (project crates root options plan).run.Meets (fsMachine host weather).phased (fun _ _ => True)
      (fun result finish => finish = world ∧ ∀ projected, result = .ok projected →
        Foresees crates options (world.layout host root) plan projected) world := by
  refine (project_opened plan fun transitions => openJobs_leads 0 transitions).mono
    fun result finish told => ⟨told.1, fun projected same => ?_⟩
  obtain ⟨transitions, jobs, snapshots, compiled, led, snapped, made⟩ := told.2 projected same
  obtain ⟨sources, outputs, assembled⟩ := assembled_of_leads compiled led snapped made
  exact assembled.foresees

end

end Worktree
