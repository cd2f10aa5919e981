import Worktree.Crates.Plain
import Worktree.Operation.Sizing
import Worktree.Plan.Compiling
import Worktree.Undo.Conflict
/-
What a receipt vouches for, and that what is written is read back.

The writer of receipts takes them from a prepared transaction, and the reader
checks every field again. Both sides are described by the same facts.
-/

namespace Worktree

open CrashLogic

namespace Undo

/-! ### The facts -/

/-- A backup where the path was present before, under its own name and with the
evidence of what was there. -/
def BackedBy (id : String) (path : ReceiptPath) : Prop :=
  match path.before, path.backupName, path.backup with
  | .present before, some name, some backup =>
      name = artifactName id path.index "backup" ∧ before.sha256 = backup.sha256 ∧
        before.bytes = backup.bytes ∧ before.permissions = backup.permissions
  | .absent, none, none => True
  | _, _, _ => False

def backupSizes (paths : List ReceiptPath) : List Nat :=
  (paths.filterMap ReceiptPath.backup).map PresentEvidence.bytes

section

variable {T : Type} (crates : Crates T)

/-- What a receipt says of its paths. -/
structure Listed (id : String) (paths : List ReceiptPath) : Prop where
  indexed : ∀ (index : Nat) (path : ReceiptPath), paths[index]? = some path → path.index = index
  spelled : ∀ path ∈ paths, (crates.validatePlanPath path.path 4096).toBool = true
  increasing : (paths.map fun path => crates.portablePathKey path.path).Pairwise (· < ·)
  backed : ∀ path ∈ paths, BackedBy id path

/-- What a receipt that is accepted under this id vouches for. -/
structure Vouched (options : WorktreeOptions) (id : String) (body : ReceiptBody) : Prop where
  schema : body.schema = Undo.schema
  named : body.transactionId = id
  some_path : body.paths ≠ []
  few : body.paths.length ≤ options.limits.maxFiles
  listed : Listed crates id body.paths
  retained : body.retainedBytes = (backupSizes body.paths).sum
  before : body.beforeFingerprint = snapshot crates body.paths true
  after : body.afterFingerprint = snapshot crates body.paths false

end

/-! ### What the checks admit -/

section

variable {T : Type} {crates : Crates T} {id : String}

theorem total_sum {sizes : List Nat} {start total : Nat}
    (added : sizes.foldlM checkedAdd start = some total) : total = start + sizes.sum := by
  induction sizes generalizing start with
  | nil =>
      cases added
      rfl
  | cons size rest ih =>
      rw [List.foldlM_cons] at added
      obtain ⟨next, fits, added⟩ := Option.bind_eq_some_iff.mp added
      unfold checkedAdd at fits
      split at fits
      · cases fits
        rw [ih added, List.sum_cons]
        omega
      · cases fits

theorem validateReceiptPath_ok_iff {position : Nat} {previous : Option String}
    {path : ReceiptPath} :
    validateReceiptPath crates id position previous path = .ok () ↔
      path.index = position ∧ (crates.validatePlanPath path.path 4096).toBool = true ∧
        (∀ key, previous = some key → key < crates.portablePathKey path.path) ∧
        BackedBy id path := by
  unfold validateReceiptPath BackedBy
  rw [check_ok, check_ok]
  have placed : ¬ (decide (path.index ≠ position) ||
      decide ((crates.validatePlanPath path.path 4096).toBool = false)) = true ↔
      path.index = position ∧ (crates.validatePlanPath path.path 4096).toBool = true := by
    simp only [Bool.or_eq_true, decide_eq_true_eq, not_or, not_not, Bool.not_eq_false]
  have ordered : ¬ (previous.any fun value =>
      decide (¬ value < crates.portablePathKey path.path)) = true ↔
      ∀ key, previous = some key → key < crates.portablePathKey path.path := by
    cases previous with
    | none => simp
    | some key => simp
  rw [placed, ordered, and_assoc]
  refine and_congr_right fun _ => and_congr_right fun _ => and_congr_right fun _ => ?_
  have refused : ∀ error, (throw error : Except WorktreeError Unit) = .ok () ↔ False :=
    fun error => ⟨fun impossible => (by cases impossible), False.elim⟩
  dsimp only
  cases path.before with
  | absent =>
      cases path.backupName with
      | some name => exact refused _
      | none =>
          cases path.backup with
          | some kept => exact refused _
          | none => exact ⟨fun _ => trivial, fun _ => rfl⟩
  | present before =>
      cases path.backupName with
      | none => exact refused _
      | some name =>
          cases path.backup with
          | none => exact refused _
          | some kept =>
              dsimp only
              split
              · next agrees => exact ⟨fun _ => agrees, fun _ => rfl⟩
              · next differs => exact (refused _).trans (iff_of_false not_false differs)

/-- What the paths from a position on are checked for, after the key before them. -/
theorem validateReceiptPaths_ok_iff {position retained total : Nat} {previous : Option String}
    {paths : List ReceiptPath} :
    validateReceiptPaths crates id position previous retained paths = .ok total ↔
      (∀ (index : Nat) (path : ReceiptPath), paths[index]? = some path →
        path.index = position + index) ∧
      (∀ path ∈ paths, (crates.validatePlanPath path.path 4096).toBool = true) ∧
      (previous.toList ++ paths.map fun path => crates.portablePathKey path.path).Pairwise (· < ·) ∧
      (∀ path ∈ paths, BackedBy id path) ∧
      (backupSizes paths).foldlM checkedAdd retained = some total := by
  induction paths generalizing position previous retained with
  | nil =>
      unfold validateReceiptPaths
      constructor
      · intro ended
        cases ended
        refine ⟨fun index path impossible => (by cases impossible),
          List.forall_mem_nil _, ?_, List.forall_mem_nil _, rfl⟩
        cases previous with
        | none => exact .nil
        | some key => exact List.pairwise_singleton _ _
      · rintro ⟨_, _, _, _, added⟩
        cases added
        rfl
  | cons path rest ih =>
      have opened : validateReceiptPaths crates id position previous retained (path :: rest) =
            .ok total ↔
          validateReceiptPath crates id position previous path = .ok () ∧
            ∃ sum, path.backup.elim (some retained) (fun backup => checkedAdd retained backup.bytes) =
                some sum ∧
              validateReceiptPaths crates id (position + 1)
                (some (crates.portablePathKey path.path)) sum rest = .ok total := by
        rw [validateReceiptPaths, bind_ok_iff]
        constructor
        · rintro ⟨⟨⟩, checked, valid⟩
          refine ⟨checked, ?_⟩
          cases kept : path.backup with
          | none =>
              rw [kept] at valid
              exact ⟨retained, rfl, valid⟩
          | some backup =>
              rw [kept] at valid
              obtain ⟨sum, added, valid⟩ := bind_ok_iff.mp valid
              exact ⟨sum, fromOption_ok_iff.mp added, valid⟩
        · rintro ⟨checked, sum, added, valid⟩
          refine ⟨(), checked, ?_⟩
          cases kept : path.backup with
          | none =>
              rw [kept] at added
              cases added
              exact valid
          | some backup =>
              rw [kept] at added
              exact bind_ok_iff.mpr ⟨sum, fromOption_ok_iff.mpr added, valid⟩
      have sizes : (backupSizes (path :: rest)).foldlM checkedAdd retained = some total ↔
          ∃ sum, path.backup.elim (some retained) (fun backup => checkedAdd retained backup.bytes) =
              some sum ∧ (backupSizes rest).foldlM checkedAdd sum = some total := by
        unfold backupSizes
        cases backup : path.backup with
        | none =>
            rw [List.filterMap_cons_none backup]
            simp
        | some kept =>
            rw [List.filterMap_cons_some backup, List.map_cons, List.foldlM_cons]
            exact Option.bind_eq_some_iff
      rw [opened, sizes, validateReceiptPath_ok_iff]
      simp only [ih]
      constructor
      · rintro ⟨⟨placed, spelled, after, backed⟩, sum, added, indexed, valid, ordered, kept,
          total⟩
        refine ⟨fun index found listed => ?_, List.forall_mem_cons.mpr ⟨spelled, valid⟩, ?_,
          List.forall_mem_cons.mpr ⟨backed, kept⟩, sum, added, total⟩
        · cases index with
          | zero =>
              cases listed
              exact placed
          | succ index =>
              rw [indexed index found listed]
              omega
        · cases previous with
          | none => exact ordered
          | some key =>
              have below := after key rfl
              refine List.pairwise_cons.mpr ⟨fun other among => ?_, ordered⟩
              rcases List.mem_cons.mp among with same | later
              · rw [same]
                exact below
              · exact String.lt_trans below ((List.pairwise_cons.mp ordered).1 other later)
      · rintro ⟨indexed, valid, ordered, kept, sum, added, total⟩
        obtain ⟨spelled, valid⟩ := List.forall_mem_cons.mp valid
        obtain ⟨backed, kept⟩ := List.forall_mem_cons.mp kept
        refine ⟨⟨indexed 0 path rfl, spelled, fun key same => ?_, backed⟩, sum, added,
          fun index found listed => ?_, valid, ?_, kept, total⟩
        · subst same
          exact (List.pairwise_cons.mp ordered).1 _ List.mem_cons_self
        · rw [indexed (index + 1) found listed]
          omega
        · cases previous with
          | none => exact ordered
          | some key => exact (List.pairwise_cons.mp ordered).2

/-- The checks of all paths find the facts, and add the sizes up. -/
theorem validateReceiptPaths_listed_iff {total : Nat} {paths : List ReceiptPath} :
    validateReceiptPaths crates id 0 none 0 paths = .ok total ↔
      Listed crates id paths ∧ totalBytes (backupSizes paths) = some total := by
  rw [validateReceiptPaths_ok_iff]
  constructor
  · rintro ⟨indexed, spelled, increasing, backed, added⟩
    refine ⟨⟨fun index path found => ?_, spelled, increasing, backed⟩, added⟩
    rw [indexed index path found, Nat.zero_add]
  · rintro ⟨listed, added⟩
    refine ⟨fun index path found => ?_, listed.spelled, listed.increasing, listed.backed, added⟩
    rw [listed.indexed index path found, Nat.zero_add]

variable {options : WorktreeOptions}

/-- A receipt that is accepted vouches for all of it. -/
theorem decodeReceipt_vouched {bytes : Bytes} {receipt : StoredReceipt}
    (decodes : decodeReceipt crates id options bytes = .ok receipt) :
    Vouched crates options id receipt.body := by
  unfold decodeReceipt at decodes
  obtain ⟨envelope, _, decodes⟩ := bind_ok_iff.mp decodes
  obtain ⟨agrees, decodes⟩ := check_ok.mp decodes
  obtain ⟨⟨⟩, valid, decodes⟩ := bind_ok_iff.mp decodes
  cases decodes
  simp only [Bool.or_eq_true, decide_eq_true_eq, not_or, not_not] at agrees
  obtain ⟨⟨schema_, named⟩, _⟩ := agrees
  unfold validateBody at valid
  obtain ⟨counted, valid⟩ := check_ok.mp valid
  obtain ⟨total, checked, valid⟩ := bind_ok_iff.mp valid
  have aggregate : ¬ (decide (total ≠ envelope.body.retainedBytes) ||
      decide (snapshot crates envelope.body.paths true ≠ envelope.body.beforeFingerprint) ||
      decide (snapshot crates envelope.body.paths false ≠ envelope.body.afterFingerprint)) =
        true := by
    intro differs
    rw [if_pos differs] at valid
    cases valid
  simp only [Bool.or_eq_true, decide_eq_true_eq, not_or, not_not] at aggregate counted
  obtain ⟨⟨sum, before⟩, after⟩ := aggregate
  rw [named] at checked
  obtain ⟨listed, added⟩ := validateReceiptPaths_listed_iff.mp checked
  have exact_sum := total_sum added
  rw [Nat.zero_add] at exact_sum
  exact ⟨schema_, named, counted.1, Nat.le_of_not_lt counted.2, listed, by rw [← sum, exact_sum],
    before.symm, after.symm⟩

/-- Whatever file is read, what is accepted vouches for all of it. -/
theorem readExact_vouched {host : Host} {weather : Weather} (control : ControlDir) :
    Gains host weather (readExact crates control id options) fun found =>
      ∀ receipt, found = some receipt → Vouched crates options id receipt.body := by
  unfold readExact
  refine Task.Yields.bind (gains_any _) fun found _ => ?_
  cases found with
  | none => exact Task.yields_pure _ fun _ impossible => by cases impossible
  | some file =>
      have read : Gains host weather (readReceipt crates file id options) fun receipt =>
          Vouched crates options id receipt.body := by
        unfold readReceipt
        refine Task.Yields.bind (gains_any _) fun metadata _ => ?_
        refine yields_check fun _ => ?_
        refine Task.Yields.bind (gains_any _) fun bytes _ => ?_
        refine yields_check fun _ => ?_
        exact Task.yields_result _ fun receipt decodes => decodeReceipt_vouched decodes
      refine Task.Yields.bind read fun receipt vouched => ?_
      refine Task.yields_pure _ fun found same => ?_
      cases same
      exact vouched

end

/-! ### What is prepared -/

section

variable {T : Type} {crates : Crates T} {host : Host} {weather : Weather} {world : World}
  {root : FsRoot} {options : WorktreeOptions} {plan : WorktreePlan T}

/-- A plan that is accepted mentions at most as many paths as its limits say. -/
def CountsPaths (crates : Crates T) : Prop :=
  ∀ plan limits fingerprint, crates.validateExecutorPlan plan limits = .ok fingerprint →
    ∀ keys : List String, keys.Nodup →
      (∀ key ∈ keys, ∃ index, Consumes crates plan.operations index key ∨
        Produces crates plan.operations index key) → keys.length ≤ limits.maxPaths

/-- The projected path is that of the transition, and its source was measured. -/
structure Foresees (crates : Crates T) (item : PathTransition T × Nat) (path : ProjectedPath T) :
    Prop where
  index : path.stableIndex = item.2
  named : path.path = item.1.path
  valid : crates.validatePlanPath item.1.path 4096 = .ok ()
  measured : ∀ source evidence, path.before = .present source evidence →
    evidence.bytes = source.length

theorem projects_foresee {projected : ProjectedPlan T}
    (projects : Projects crates host options root world plan projected) :
    ∃ transitions, compilePlan crates plan = .ok transitions ∧
      List.Forall₂ (Foresees crates) transitions.zipIdx projected.paths := by
  obtain ⟨transitions, jobs, snapshots, compiled, opened, snapped, assembled⟩ := projects.assembled
  obtain ⟨sources, _, _, _, _, gathered, _, _⟩ := assemble_ok assembled
  refine ⟨transitions, compiled, ?_⟩
  have snapshotted : List.Forall₂ (fun item snapshot => ∃ job,
      Opens crates root item job ∧ Snaps crates host options world job snapshot)
      transitions.zipIdx snapshots :=
    forall₂_compose opened snapped fun _ job _ opens snaps => ⟨job, opens, snaps⟩
  refine forall₂_compose snapshotted (gatherOutputs_ok gathered)
    fun item snapshot path both assembles => ?_
  obtain ⟨job, opens, snaps⟩ := both
  refine ⟨?_, ?_, opens.valid, fun source evidence present => ?_⟩
  · rw [assembles.index, snaps.index, opens.index]
  · rw [assembles.named, snaps.transition, opens.transition]
  · have observes := snaps.observes
    rw [← assembles.before, present] at observes
    obtain ⟨seen, _, _, _, rfl, rfl⟩ := observes
    rfl

/-- The staged path is that of the transition, backed as a receipt wants it. -/
structure Derives (crates : Crates T) (id : String) (item : PathTransition T × Nat)
    (staged : StagedPath) : Prop where
  index : staged.stableIndex = item.2
  named : staged.path = item.1.path
  valid : (crates.validatePlanPath staged.path 4096).toBool = true
  backed : BackedBy id (receiptPath staged)

theorem Foresees.derives {id : String} {item : PathTransition T × Nat} {path : ProjectedPath T}
    {staged : StagedPath} (foresees : Foresees crates item path) (backs : Backs id path staged) :
    Derives crates id item staged := by
  have stands := backs.stands
  refine ⟨stands.index.trans foresees.index, stands.named.trans foresees.named, ?_, ?_⟩
  · rw [stands.named, foresees.named, foresees.valid]
    rfl
  · have kept := stands.backup
    have named := stands.backupName
    have before := stands.before
    have indexed := stands.index
    unfold BackedBy receiptPath
    dsimp only
    dsimp only [stageJob] at named
    cases shown : path.before with
    | absent =>
        rw [shown] at kept named before
        have none_kept : staged.backup = none := kept
        rw [before, named, none_kept]
        trivial
    | present source evidence =>
        have sized := backs.sized source evidence shown
        have measured := foresees.measured source evidence shown
        rw [shown] at kept named before
        obtain ⟨artifact, made, agrees, permitted⟩ := kept
        rw [before, named, made, indexed]
        exact ⟨rfl, agrees.symm, measured.trans (sized artifact made).symm, permitted.symm⟩

/-- What is known of a prepared transaction. -/
structure Accounted (crates : Crates T) (transaction : PreparedWorktreeTransaction) : Prop where
  some_path : transaction.paths ≠ []
  few : transaction.paths.length ≤ transaction.options.limits.maxFiles
  listed : Listed crates transaction.transactionId (transaction.paths.map receiptPath)

theorem derives_listed {id : String} {transitions : List (PathTransition T)}
    {paths : List StagedPath} (compiled : compilePlan crates plan = .ok transitions)
    (derived : List.Forall₂ (Derives crates id) transitions.zipIdx paths) :
    Listed crates id (paths.map receiptPath) := by
  have each : ∀ path ∈ paths, ∃ item, Derives crates id item path := by
    intro path among
    obtain ⟨index, found⟩ := List.mem_iff_getElem?.mp among
    obtain ⟨item, _, derives⟩ := getElem?_of_forall₂ derived found
    exact ⟨item, derives⟩
  refine ⟨fun index path found => ?_, fun path among => ?_, ?_, fun path among => ?_⟩
  · rw [List.getElem?_map] at found
    obtain ⟨staged, listed, rfl⟩ := Option.map_eq_some_iff.mp found
    obtain ⟨item, zipped, derives⟩ := getElem?_of_forall₂ derived listed
    rw [List.getElem?_zipIdx] at zipped
    obtain ⟨transition, _, rfl⟩ := Option.map_eq_some_iff.mp zipped
    exact derives.index.trans (Nat.zero_add index)
  · obtain ⟨staged, listed, rfl⟩ := List.mem_map.mp among
    obtain ⟨item, derives⟩ := each staged listed
    exact derives.valid
  · have keys : transitions.map (fun transition => crates.portablePathKey transition.path) =
        (paths.map receiptPath).map fun path => crates.portablePathKey path.path := by
      rw [← List.zipIdx_map_fst 0 transitions, List.map_map, List.map_map,
        ← List.forall₂_eq_eq_eq, List.forall₂_map_left_iff, List.forall₂_map_right_iff]
      exact derived.imp fun item staged derives =>
        congrArg crates.portablePathKey derives.named.symm
    rw [← keys]
    exact (compilePlan_keys compiled).1
  · obtain ⟨staged, listed, rfl⟩ := List.mem_map.mp among
    obtain ⟨item, derives⟩ := each staged listed
    exact derives.backed

/-- A plan that is accepted compiles to some transitions, and to no more than its
limits say. -/
theorem compiled_counts (counts : CountsPaths crates) {limits : RefactorPlanLimits}
    {fingerprint : Sha256Hash} {transitions : List (PathTransition T)}
    (accepted : crates.validateExecutorPlan plan limits = .ok fingerprint)
    (compiled : compilePlan crates plan = .ok transitions) :
    transitions ≠ [] ∧ transitions.length ≤ limits.maxPaths := by
  obtain ⟨increasing, mentioned⟩ := compilePlan_keys compiled
  constructor
  · intro empty
    have some_operation := (crates.executor_operations plan limits fingerprint accepted).1
    obtain ⟨operation, rest, listed⟩ := List.exists_cons_of_ne_nil some_operation
    have first : plan.operations[0]? = some operation := by
      rw [listed]
      rfl
    have named : ∃ path, operation.source = some path ∨ operation.target = some path := by
      cases operation with
      | modify file => exact ⟨_, .inl rfl⟩
      | create file => exact ⟨_, .inr rfl⟩
      | delete file => exact ⟨_, .inl rfl⟩
      | rename file => exact ⟨_, .inl rfl⟩
    obtain ⟨path, named⟩ := named
    have among := (mentioned (crates.portablePathKey path)).mpr
      ⟨0, named.imp (fun source => ⟨operation, path, first, source, rfl⟩)
        fun target => ⟨operation, path, first, target, rfl⟩⟩
    rw [empty] at among
    cases among
  · have counted := counts plan limits fingerprint accepted _
      (increasing.imp fun below same => absurd (same ▸ below) (String.lt_irrefl _))
      fun key among => (mentioned key).mp among
    rw [List.length_map] at counted
    exact counted

/-- A plan is prepared with paths that a receipt can list. -/
theorem prepareOperationPlan_accounted (counts : CountsPaths crates)
    (panics : Nat → Option (Nat × Payload)) (root : FsRoot) (options : WorktreeOptions)
    (plan : WorktreePlan T) (start : World) :
    (prepareOperationPlan crates panics root options plan).run.Meets (fsMachine host weather).phased
      (fun _ _ => True) (fun result _ => ∀ transaction, result = .ok transaction →
        Accounted crates transaction) start := by
  unfold prepareOperationPlan
  rw [Task.meets_except_bind]
  cases validated : validateContract crates plan options with
  | error error =>
      intro transaction impossible
      cases impossible
  | ok fingerprint =>
      have accepted : crates.validateExecutorPlan plan (planLimits options) = .ok fingerprint := by
        unfold validateContract at validated
        cases checked : crates.validateExecutorPlan plan (planLimits options) with
        | error error =>
            rw [checked] at validated
            cases validated
        | ok found =>
            rw [checked] at validated
            cases validated
            rfl
      dsimp only [ExceptT.run_mk]
      rw [Task.meets_pure]
      dsimp only
      rw [Task.meets_except_bind]
      refine (anything_planning _ start).mono fun result here _ => ?_
      cases result with
      | error error =>
          intro transaction impossible
          cases impossible
      | ok locked =>
          dsimp only
          rw [Task.meets_except_bind, Task.meets_except_lift]
          have staged : ∀ projected id writer later,
              Projects crates host options root here plan projected → isValidId id = true →
              ((stageAll crates panics projected id options).run.run writer).Meets
                (fsMachine host weather).phased (fun _ _ => True) (fun result _ => ∀ value,
                  result.1 = .ok value → List.Forall₂ (Backs id) projected.paths value.2.2) later :=
            fun projected id writer later projects valid =>
              (stageAll_backs panics projected id valid (fun index path => projects.numbered) writer
                later).mono fun _ _ told value same => (told value same).2.2
          refine (prepareLocked_collects panics plan fingerprint locked here (project_meets plan)
            staged).mono fun result finish told => ?_
          cases result with
          | error error =>
              dsimp only
              rw [Task.meets_except_bind]
              refine ⟨trivial, fun answer later _ => ?_⟩
              intro transaction impossible
              cases impossible
          | ok transaction =>
              intro found same
              cases same
              obtain ⟨projected, projects, backs, chosen⟩ := told transaction rfl
              obtain ⟨transitions, compiled, foresees⟩ := projects_foresee projects
              obtain ⟨some_transition, few⟩ := compiled_counts counts accepted compiled
              have derived := forall₂_compose foresees backs
                fun _ _ _ foresees backs => Foresees.derives foresees backs
              have counted := derived.length_eq
              rw [List.length_zipIdx] at counted
              refine ⟨fun empty => some_transition ?_, ?_, derives_listed compiled derived⟩
              · rw [empty] at counted
                exact List.length_eq_zero_iff.mp counted
              · rw [chosen, ← counted]
                exact few

/-! ### What is stored -/

/-- A receipt that is written is there, with no other name. -/
theorem writeNew_fills (control : ControlDir) (id : String) (bytes : Bytes) (start : World) :
    (writeNew control id bytes).run.Meets (fsMachine host weather) (fun _ _ => True)
      (fun result finish => result = .ok () → ∃ undo : UndoId, undo.value = id ∧
        ∃ file, Filled (receiptSlot control undo) file bytes finish) start := by
  have failing : ∀ (error : IoError) (here : World), (do
        let _ ← ExceptT.lift (control.removeUndoReceipt id).run
        throw (storeIo error) : Action Unit).run.Meets (fsMachine host weather) (fun _ _ => True)
      (fun result _ => result ≠ .ok ()) here := by
    intro error here
    refine Task.Ends.meets ?_ here
    rw [ExceptT.run_bind, Task.ends_bind]
    refine Task.ends_any fun result => ?_
    cases result with
    | error failed => exact fun impossible => by cases impossible
    | ok value => exact fun impossible => by cases impossible
  unfold writeNew
  rw [Task.meets_except_bind]
  unfold orElse ControlDir.createUndoReceipt
  rw [Task.meets_except_adapt]
  by_cases valid : isValidId id = true
  · have named := undoName_id ⟨id, valid⟩
    dsimp only at named
    rw [named]
    refine ⟨trivial, fun answer here stepped => ?_⟩
    obtain ⟨_, empty⟩ := aside_createNew stepped
    cases answer with
    | error error =>
        intro impossible
        cases impossible
    | ok file =>
        have ready := empty file rfl
        rw [slot_receipt ⟨id, valid⟩] at ready
        rw [Task.meets_done]
        dsimp only [Except.mapError]
        rw [Task.meets_except_bind, Task.meets_except_lift, Task.meets_except_bind]
        refine ⟨trivial, fun answer there wrote => ?_⟩
        have filled := filled_write ready wrote
        cases answer with
        | error error =>
            rw [Task.meets_done]
            exact (failing error there).mono fun _ _ differs same => absurd same differs
        | ok value =>
            refine ⟨trivial, fun answer last synced => ?_⟩
            have same := (quiet_syncFile file there).2 answer last synced
            subst same
            cases answer with
            | error error =>
                rw [Task.meets_done]
                exact (failing error last).mono fun _ _ differs same => absurd same differs
            | ok value =>
                refine ⟨trivial, fun answer ending flushed => ?_⟩
                have same := (quiet_syncDir control.dir last).2 answer ending flushed
                subst same
                exact fun _ => ⟨⟨id, valid⟩, rfl, file, filled rfl⟩
  · have refused : ∃ error, undoName id = .error error := by
      unfold undoName validateUndoId
      rw [if_neg valid]
      exact ⟨_, rfl⟩
    obtain ⟨error, named⟩ := refused
    rw [named]
    intro impossible
    cases impossible

/-- A retention that ends well leaves the receipt it names. -/
theorem prepareRetention_stores (transaction : PreparedWorktreeTransaction)
    (policy : UndoRetention) (start : World) :
    (prepareRetention crates transaction policy).run.Meets (fsMachine host weather)
      (fun _ _ => True) (fun result finish => ∀ stored, result = .ok stored →
        bodyFrom crates transaction = .ok stored.body ∧
        stored.checksum = bodyChecksum crates stored.body ∧
        stored.storedBytes = (crates.receipt.encode ⟨stored.body, stored.checksum⟩).length ∧
        ∃ id : UndoId, id.value = stored.id ∧ ∃ file,
          Filled (receiptSlot transaction.control id) file
            (crates.receipt.encode ⟨stored.body, stored.checksum⟩) finish) start := by
  unfold prepareRetention
  rw [Task.meets_except_bind]
  cases validatePolicy policy transaction.options with
  | error error =>
      intro stored impossible
      cases impossible
  | ok value =>
      dsimp only [liftWorktree, ExceptT.run_mk]
      rw [Task.meets_pure]
      dsimp only
      rw [Task.meets_except_bind]
      refine (Task.Ends.meets (Task.ends_any fun _ => trivial) start :
        (storeUsage crates transaction.control transaction.options).run.Meets
          (fsMachine host weather) (fun _ _ => True) (fun _ _ => True) start).mono
        fun result here _ => ?_
      cases result with
      | error error =>
          intro stored impossible
          cases impossible
      | ok usage =>
          dsimp only
          rw [Task.meets_except_bind]
          cases made : bodyFrom crates transaction with
          | error error =>
              intro stored impossible
              cases impossible
          | ok body =>
              dsimp only [liftWorktree, ExceptT.run_mk]
              rw [Task.meets_pure]
              dsimp only
              split
              · intro stored impossible
                cases impossible
              · rw [Task.meets_except_bind]
                refine (writeNew_fills _ _ _ here).mono fun result finish filled => ?_
                cases result with
                | error error =>
                    intro stored impossible
                    cases impossible
                | ok value =>
                    intro stored same
                    cases same
                    exact ⟨rfl, rfl, rfl, filled rfl⟩

/-- The receipt of the transaction is read back as it was stored, wherever its file
is still the one that was stored. -/
def RoundTrips (crates : Crates T) (host : Host) (transaction : PreparedWorktreeTransaction) :
    Prop :=
  ∀ (weather : Weather) (policy : UndoRetention) (start finish : World) (stored : StoredReceipt),
    (prepareRetention crates transaction policy).run.Returns (fsMachine host weather) start
      (.ok stored) finish →
    (crates.receipt.encode ⟨stored.body, stored.checksum⟩).length ≤
      transaction.options.limits.maxJournalBytes →
    stored.id = transaction.transactionId ∧ ∃ id : UndoId, id.value = stored.id ∧
      ∀ later, later.look (receiptSlot transaction.control id) =
          finish.look (receiptSlot transaction.control id) →
        (readExact crates transaction.control stored.id transaction.options).run.run
          (fsKernel host) later = (.ok (some stored), later)

theorem Accounted.decodes {transaction : PreparedWorktreeTransaction} {body : ReceiptBody}
    (accounted : Accounted crates transaction) (made : bodyFrom crates transaction = .ok body) :
    body.transactionId = transaction.transactionId ∧
      decodeReceipt crates transaction.transactionId transaction.options
        (crates.receipt.encode ⟨body, bodyChecksum crates body⟩) =
        .ok ⟨body, bodyChecksum crates body,
          (crates.receipt.encode ⟨body, bodyChecksum crates body⟩).length⟩ := by
  unfold bodyFrom at made
  obtain ⟨retained, added, made⟩ := bind_ok_iff.mp made
  have valid := validateReceiptPaths_listed_iff.mpr ⟨accounted.listed, fromOption_ok_iff.mp added⟩
  have some_listed : transaction.paths.map receiptPath ≠ [] :=
    fun empty => accounted.some_path (List.map_eq_nil_iff.mp empty)
  have few : (transaction.paths.map receiptPath).length ≤ transaction.options.limits.maxFiles := by
    rw [List.length_map]
    exact accounted.few
  have fields := Except.ok.inj made
  have named : body.transactionId = transaction.transactionId := by rw [← fields]
  have paths : body.paths = transaction.paths.map receiptPath := by rw [← fields]
  have sum : body.retainedBytes = retained := by rw [← fields]
  refine ⟨named, decodeReceipt_encode ?_ named ?_ ?_ ?_ ?_ ?_⟩
  · rw [← fields]
  · rw [paths]
    exact some_listed
  · rw [paths]
    exact few
  · rw [paths, sum]
    exact valid
  · rw [paths, ← fields]
  · rw [paths, ← fields]

theorem Accounted.roundTrips {transaction : PreparedWorktreeTransaction}
    (accounted : Accounted crates transaction) : RoundTrips crates host transaction := by
  intro weather policy start finish stored returned fits
  obtain ⟨made, checksum, length, id, named, file, filled⟩ :=
    (prepareRetention_stores transaction policy start).returns returned stored rfl
  obtain ⟨body, digest, size⟩ := stored
  dsimp only [StoredReceipt.id] at made checksum length fits filled named ⊢
  subst checksum length
  obtain ⟨same, decodes⟩ := accounted.decodes made
  refine ⟨same, id, named, fun later unchanged => ?_⟩
  have shown := unchanged.trans filled.sole.shows
  rw [← same, ← named] at decodes
  rw [← named]
  have held : StoredAs crates host transaction.control transaction.options later id
      ⟨body, bodyChecksum crates body,
        (crates.receipt.encode ⟨body, bodyChecksum crates body⟩).length⟩
      ⟨file, finish.inodes file, 1⟩ := by
    refine ⟨?_, filled.regular, ?_, ?_⟩
    · rw [slot_receipt]
      exact shown
    · dsimp only
      rw [filled.content]
      exact fits
    · dsimp only
      rw [filled.content]
      exact decodes
  exact readExact_run held

end

/-- A receipt written for a prepared transaction is read back as it was stored, and
whatever is read under an id vouches for every one of its fields. -/
theorem receipts_roundTrip {T : Type} (crates : Crates T) (counts : CountsPaths crates)
    (host : Host) (weather : Weather) (root : FsRoot) (options : WorktreeOptions) :
    (∀ (panics : Nat → Option (Nat × Payload)) (plan : WorktreePlan T) (start : World),
      (prepareOperationPlan crates panics root options plan).run.Meets
        (fsMachine host weather).phased (fun _ _ => True) (fun result _ => ∀ transaction,
          result = .ok transaction → RoundTrips crates host transaction) start) ∧
    ∀ (control : ControlDir) (id : String), Gains host weather
      (readExact crates control id options) fun found => ∀ receipt, found = some receipt →
        Vouched crates options id receipt.body := by
  constructor
  · intro panics plan start
    exact (prepareOperationPlan_accounted counts panics root options plan start).mono
      fun result finish accounted transaction same => (accounted transaction same).roundTrips
  · intro control id
    exact readExact_vouched control

/-! ### One file created, one deleted -/

section Counted

/-- The plain crates, and the paths of a plan are counted. -/
def countingCrates : Crates Unit :=
  { plainCrates with
    validateExecutorPlan := fun plan limits =>
      if (plan.operations.flatMap WorktreeOperation.mentions).dedup.length ≤ limits.maxPaths then
        plainCrates.validateExecutorPlan plan limits
      else .error ⟨.other, none, none, "too many paths"⟩
    executor_operation := by
      intro plan limits fingerprint accepted
      split at accepted
      · exact plainCrates.executor_operation plan limits fingerprint accepted
      · cases accepted
    executor_operations := by
      intro plan limits fingerprint accepted
      split at accepted
      · exact plainCrates.executor_operations plan limits fingerprint accepted
      · cases accepted }

theorem countingCrates_counts : CountsPaths countingCrates := by
  intro plan limits fingerprint accepted keys distinct mentioned
  have few : (plan.operations.flatMap WorktreeOperation.mentions).dedup.length ≤
      limits.maxPaths := by
    by_contra many
    dsimp only [countingCrates] at accepted
    rw [if_neg many] at accepted
    cases accepted
  refine Nat.le_trans (List.Subperm.length_le (distinct.subperm fun key among => ?_)) few
  rw [List.mem_dedup, List.mem_flatMap]
  obtain ⟨index, ⟨operation, path, found, source, rfl⟩ | ⟨operation, path, found, target, rfl⟩⟩ :=
    mentioned key among
  · exact ⟨operation, List.mem_of_getElem? found, WorktreeOperation.mem_mentions.mpr (.inl source)⟩
  · exact ⟨operation, List.mem_of_getElem? found, WorktreeOperation.mem_mentions.mpr (.inr target)⟩

/-- The bare worktree with a file `b`. -/
def furnishedWorld : World :=
  World.tree [(⟨0, ".weavatrix"⟩, 1), (⟨1, "worktree"⟩, 2), (⟨2, "lock"⟩, 3),
      (⟨0, "b"⟩, 4)] fun ino =>
    if ino ≤ 2 then ⟨.directory, 0, [], 0o755⟩
    else if ino = 4 then ⟨.file, 0, [120], 0o644⟩
    else ⟨.file, 0, [], 0o644⟩

def exchangePlan : WorktreePlan Unit :=
  ⟨"create a, delete b", [.create ⟨"a", [], ⟨false⟩⟩, .delete ⟨"b", (Sha256.digest [120]).display⟩]⟩

@[irreducible] private def exchangePrepare : Planning PreparedWorktreeTransaction :=
  prepareOperationPlan countingCrates (fun _ => none) ⟨0, 0⟩ plainOptions exchangePlan

private def exchangeEnd : Except WorktreeError PreparedWorktreeTransaction × World :=
  exchangePrepare.run.phasedRun (fsKernel .plain) furnishedWorld

/-- The receipt of what it hands on is stored. -/
private def exchangeStored : Option (Except WorktreeError StoredReceipt × World) :=
  exchangeEnd.1.toOption.map fun transaction =>
    (prepareRetention countingCrates transaction .default).run.run (fsKernel .plain) exchangeEnd.2

/-- The plan that creates one file and deletes another is prepared, with a backup; its
receipt is stored, and read back. -/
theorem receipts_roundTrip_exchange :
    ∃ transaction finish, (prepareOperationPlan countingCrates (fun _ => none) ⟨0, 0⟩ plainOptions
        exchangePlan).run.Returns (fsMachine .plain .calm).phased furnishedWorld (.ok transaction)
        finish ∧
      (transaction.paths.any fun path => path.backup.isSome) = true ∧
      RoundTrips countingCrates .plain transaction ∧ ∃ stored last,
        (prepareRetention countingCrates transaction .default).run.Returns (fsMachine .plain .calm)
          finish (.ok stored) last ∧
        (readExact countingCrates transaction.control stored.id transaction.options).run.run
          (fsKernel .plain) last = (.ok (some stored), last) := by
  have same : exchangePrepare = prepareOperationPlan countingCrates (fun _ => none) ⟨0, 0⟩
      plainOptions exchangePlan := by
    unfold exchangePrepare
    rfl
  have some_worker : exchangePrepare.run.manned (fsKernel .plain) furnishedWorld = true := by
    decide +kernel
  have returned : exchangePrepare.run.Returns (fsMachine .plain .calm).phased furnishedWorld
      exchangeEnd.1 exchangeEnd.2 :=
    Task.returns_phasedRun (step_exec trivial) _ furnishedWorld some_worker
  have ended : (exchangeEnd.1.toOption.any fun transaction =>
        transaction.paths.any fun path => path.backup.isSome) = true ∧
      (exchangeStored.any fun ran => ran.1.toOption.any fun stored =>
        (countingCrates.receipt.encode ⟨stored.body, stored.checksum⟩).length ≤
          plainOptions.limits.maxJournalBytes) = true ∧
      (exchangeEnd.1.toOption.any fun transaction =>
        transaction.options = plainOptions) = true := by
    decide +kernel
  unfold exchangeStored at ended
  rw [← same]
  cases prepared : exchangeEnd.1 with
  | error error =>
      rw [prepared] at ended
      cases ended.1
  | ok transaction =>
      rw [prepared] at returned ended
      obtain ⟨kept, ran, chosen⟩ := ended
      have meets := (receipts_roundTrip countingCrates countingCrates_counts .plain .calm ⟨0, 0⟩
        plainOptions).1 (fun _ => none) exchangePlan furnishedWorld
      rw [← same] at meets
      have trips : RoundTrips countingCrates .plain transaction :=
        meets.returns returned transaction rfl
      have stores : (prepareRetention countingCrates transaction .default).run.Returns
          (fsMachine .plain .calm) exchangeEnd.2 _ _ := returns_run trivial _ exchangeEnd.2
      cases stored : ((prepareRetention countingCrates transaction .default).run.run
          (fsKernel .plain) exchangeEnd.2).1 with
      | error error =>
          dsimp only [Except.toOption, Option.map_some, Option.any_some] at ran
          rw [stored] at ran
          cases ran
      | ok receipt =>
          rw [stored] at stores
          dsimp only [Except.toOption, Option.map_some, Option.any_some] at ran chosen
          rw [stored] at ran
          have fits := of_decide_eq_true ran
          rw [← of_decide_eq_true chosen] at fits
          obtain ⟨_, _, _, reads⟩ := trips .calm .default exchangeEnd.2 _ receipt stores fits
          exact ⟨transaction, exchangeEnd.2, returned, kept, trips, receipt, _, stores, reads _ rfl⟩

end Counted

end Undo

end Worktree
