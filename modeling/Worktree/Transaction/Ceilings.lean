import Worktree.Crates.Plain
import Worktree.Filesystem.Bypassing
import Worktree.Operation.Prepare
import Worktree.Transaction.Projection
/-
What is computed from the limits of a worktree.

Limits that validate leave room for one byte more than any file may have, and
for the sums over the files of a plan that stays within them. The ceiling on all
edits is a product that nothing bounds: one engine multiplies it out and refuses
the plan where the other takes the largest number there is.
-/

namespace Worktree

open CrashLogic

/-! ### What validation gives -/

theorem WorktreeLimits.validate_sums {limits : WorktreeLimits} (valid : limits.validate = .ok ()) :
    (∀ entry ∈ limits.named, 0 < entry.2) ∧
      limits.maxSourceBytesPerFile ≤ limits.maxTotalSourceBytes ∧
      limits.maxOutputBytesPerFile ≤ limits.maxTotalOutputBytes ∧
      limits.maxTotalSourceBytes + limits.maxTotalOutputBytes ≤ u64Max ∧
      limits.maxTotalSourceBytes + limits.maxTotalOutputBytes ≤ limits.maxTotalArtifactBytes := by
  unfold WorktreeLimits.validate at valid
  cases zero : limits.named.find? fun entry => entry.2 = 0 with
  | some entry =>
      rw [zero] at valid
      cases valid
  | none =>
      rw [zero] at valid
      have positive := List.find?_eq_none.mp zero
      by_cases workers : limits.maxWorkers > absoluteMaxWorkers
      · simp only [if_pos workers] at valid
        cases valid
      by_cases journal : limits.maxJournalBytes > absoluteMaxJournalBytes
      · simp only [if_neg workers, if_pos journal] at valid
        cases valid
      by_cases receipts : limits.maxUndoReceipts > absoluteMaxUndoReceipts
      · simp only [if_neg workers, if_neg journal, if_pos receipts] at valid
        cases valid
      by_cases undo : limits.maxTotalUndoBytes > absoluteMaxUndoBytes
      · simp only [if_neg workers, if_neg journal, if_neg receipts, if_pos undo] at valid
        cases valid
      by_cases source : limits.maxTotalSourceBytes < limits.maxSourceBytesPerFile
      · simp only [if_neg workers, if_neg journal, if_neg receipts, if_neg undo,
          if_pos source] at valid
        cases valid
      by_cases output : limits.maxTotalOutputBytes < limits.maxOutputBytesPerFile
      · simp only [if_neg workers, if_neg journal, if_neg receipts, if_neg undo,
          if_neg source, if_pos output] at valid
        cases valid
      simp only [if_neg workers, if_neg journal, if_neg receipts, if_neg undo,
        if_neg source, if_neg output] at valid
      unfold checkedAdd at valid
      by_cases fits : limits.maxTotalSourceBytes + limits.maxTotalOutputBytes ≤ u64Max
      · rw [if_pos fits] at valid
        dsimp only at valid
        by_cases covered : limits.maxTotalArtifactBytes <
            limits.maxTotalSourceBytes + limits.maxTotalOutputBytes
        · rw [if_pos covered] at valid
          cases valid
        · refine ⟨fun entry among => ?_, Nat.le_of_not_lt source, Nat.le_of_not_lt output, fits,
            Nat.le_of_not_lt covered⟩
          have nonzero := positive entry among
          rw [decide_eq_true_eq] at nonzero
          exact Nat.pos_of_ne_zero nonzero
      · rw [if_neg fits] at valid
        cases valid

theorem WorktreeOptions.validate_limits {options : WorktreeOptions}
    (valid : options.validate = .ok ()) : options.limits.validate = .ok () := by
  obtain ⟨⟨⟩, limits, _⟩ := bind_ok_iff.mp valid
  exact limits

/-! ### The statement -/

/-- The byte limits that readers are given. -/
def byteLimits (options : WorktreeOptions) : List Nat :=
  [options.limits.maxSourceBytesPerFile, options.limits.maxOutputBytesPerFile, options.maxBytes]

def ProjectedInput.size : ProjectedInput → Nat
  | .absent => 0
  | .present source _ => source.length

def ProjectedOutput.size {T : Type} : ProjectedOutput T → Nat
  | .absent => 0
  | .present output => output.bytes

/-- What is found at the end of a path. -/
def probeAt {T : Type} (crates : Crates T) (root : FsRoot) (path : String) : Io TargetProbe := do
  let access ← root.openTarget crates path
  access.probe

/-- An edit plan and the operation plan with the same edits. -/
def Mirrors {T : Type} (plan : EditPlan T) (operations : WorktreePlan T) : Prop :=
  operations.operation = plan.operation ∧
    operations.operations = plan.files.map fun file => .modify file.edit

/-- Nothing that is computed from the limits overflows. -/
structure NeverOverflows (options : WorktreeOptions) : Prop where
  plusOne : ∀ maxBytes ∈ byteLimits options, checkedAdd maxBytes 1 = some (maxBytes + 1)
  /-- The first engine, while it looks for files that are this long together. -/
  probed : ∀ {T : Type} (crates : EditCrates T) (host : Host) (weather : Weather)
    (known : World → Prop) (root : FsRoot) (files : List (FileEdit T × Nat))
    (length : String → Nat),
    (∀ entry ∈ files, Task.Yields (fsMachine host weather) (fun _ => False) known
      (probeAt crates.toCrates root entry.1.path) fun probe =>
        probe.bytes = length entry.1.path) →
    (files.map fun entry => length entry.1.path).sum ≤ options.limits.maxTotalSourceBytes →
    (Edit.preflight crates root options [] 0 files).run.Upholds (fsMachine host weather)
      (fun _ => False) known fun result =>
        result ≠ .error (Edit.tooLargePlan "total source size overflow")
  /-- The first engine, with the outputs at hand. -/
  projected : ∀ {T : Type} (files : List (Edit.ProjectedTarget T)),
    (files.map fun file => file.projected.bytesBefore).sum ≤
      options.limits.maxTotalSourceBytes →
    (files.map fun file => file.projected.bytesAfter).sum ≤
      options.limits.maxTotalOutputBytes →
    Edit.validateAggregateOutput files options = .ok ()
  /-- The second engine: the sums are the exact ones. -/
  assembled : ∀ {T : Type} (crates : Crates T) (given : Sources)
    (snapshots : List (SnapshotResult T)) (afters : List (ProjectedOutput T)),
    List.Forall₂ (fun (result : SnapshotResult T) after =>
      projectAfter crates options result.transition.after result.before given = .ok after)
      snapshots afters →
    (snapshots.map fun result => result.before.size).sum ≤ options.limits.maxTotalSourceBytes →
    (afters.map ProjectedOutput.size).sum ≤ options.limits.maxTotalOutputBytes →
    (∃ sources, gatherSources options {} 0 snapshots =
      .ok (sources, (snapshots.map fun result => result.before.size).sum)) ∧
    (∃ outputs paths, gatherOutputs crates options given {} 0 snapshots =
      .ok (outputs, (afters.map ProjectedOutput.size).sum, paths)) ∧
    checkedAdd (snapshots.map fun result => result.before.size).sum
        (afters.map ProjectedOutput.size).sum =
      some ((snapshots.map fun result => result.before.size).sum +
        (afters.map ProjectedOutput.size).sum)
  /-- What the first engine refuses for the ceiling, the second refuses too. -/
  ceiling : ∀ {T : Type} (crates : EditCrates T) (plan : EditPlan T)
    (operations : WorktreePlan T), Mirrors plan operations →
    ¬ (Edit.validatePlan crates plan options =
        .error (Edit.tooLargePlan "total edit limit overflow") ∧
      ∃ fingerprint, validateContract crates.toCrates operations options = .ok fingerprint)

/-! ### The sums -/

theorem checkedAdd_fits {left right : Nat} (fits : left + right ≤ u64Max) :
    checkedAdd left right = some (left + right) :=
  if_pos fits

section

variable {T : Type} {options : WorktreeOptions}

theorem gatherSources_fits (machine : options.limits.maxTotalSourceBytes ≤ u64Max)
    (snapshots : List (SnapshotResult T)) (sources : Sources) (total : Nat)
    (fits : total + (snapshots.map fun result => result.before.size).sum ≤
      options.limits.maxTotalSourceBytes) :
    ∃ gathered, gatherSources options sources total snapshots =
      .ok (gathered, total + (snapshots.map fun result => result.before.size).sum) := by
  induction snapshots generalizing sources total with
  | nil => exact ⟨sources, rfl⟩
  | cons result rest ih =>
      rw [List.map_cons, List.sum_cons] at fits ⊢
      unfold gatherSources
      cases before : result.before with
      | absent =>
          rw [before] at fits
          dsimp only [ProjectedInput.size] at fits ⊢
          rw [Nat.zero_add] at fits ⊢
          exact ih sources total fits
      | present source evidence =>
          rw [before] at fits
          dsimp only [ProjectedInput.size] at fits ⊢
          rw [← Nat.add_assoc] at fits ⊢
          have small : total + source.length ≤ options.limits.maxTotalSourceBytes := by omega
          rw [checkedAdd_fits (Nat.le_trans small machine)]
          change ∃ gathered, (if total + source.length > options.limits.maxTotalSourceBytes then _
            else _) = _
          rw [if_neg (Nat.not_lt.mpr small)]
          exact ih _ _ fits

theorem gatherOutputs_fits {crates : Crates T} {given : Sources}
    (machine : options.limits.maxTotalOutputBytes ≤ u64Max)
    {snapshots : List (SnapshotResult T)} {afters : List (ProjectedOutput T)}
    (projects : List.Forall₂ (fun (result : SnapshotResult T) after =>
      projectAfter crates options result.transition.after result.before given = .ok after)
      snapshots afters) (outputs : Outputs) (total : Nat)
    (fits : total + (afters.map ProjectedOutput.size).sum ≤ options.limits.maxTotalOutputBytes) :
    ∃ gathered paths, gatherOutputs crates options given outputs total snapshots =
      .ok (gathered, total + (afters.map ProjectedOutput.size).sum, paths) := by
  induction projects generalizing outputs total with
  | nil => exact ⟨outputs, [], rfl⟩
  | @cons result after rest others here later ih =>
      rw [List.map_cons, List.sum_cons] at fits ⊢
      unfold gatherOutputs
      rw [here]
      cases after with
      | absent =>
          dsimp only [ProjectedOutput.size] at fits ⊢
          rw [Nat.zero_add] at fits ⊢
          obtain ⟨gathered, paths, further⟩ := ih outputs total fits
          refine ⟨gathered, { stableIndex := result.stableIndex
                              path := result.transition.path
                              access := result.access
                              before := result.before
                              after := .absent } :: paths, ?_⟩
          simp only [bind, Except.bind, pure, Except.pure, further]
      | present present =>
          dsimp only [ProjectedOutput.size] at fits ⊢
          rw [← Nat.add_assoc] at fits ⊢
          have small : total + present.bytes ≤ options.limits.maxTotalOutputBytes := by omega
          obtain ⟨gathered, paths, further⟩ := ih (outputs.insert result.transition.path
            (present.sha256, present.bytes, present.editCount)) (total + present.bytes) fits
          refine ⟨gathered, { stableIndex := result.stableIndex
                              path := result.transition.path
                              access := result.access
                              before := result.before
                              after := .present present } :: paths, ?_⟩
          have summed : fromOption (checkedAdd total present.bytes)
              (planTooLarge "total output byte count overflow") =
                .ok (total + present.bytes) := by
            rw [checkedAdd_fits (Nat.le_trans small machine)]
            rfl
          simp only [bind, Except.bind, summed, if_neg (Nat.not_lt.mpr small), pure, Except.pure,
            further]

/-- The step of the fold over the files. -/
theorem aggregate_fits (files : List (Edit.ProjectedTarget T)) (source output : Nat)
    (sources : source + (files.map fun file => file.projected.bytesBefore).sum ≤ u64Max)
    (outputs : output + (files.map fun file => file.projected.bytesAfter).sum ≤ u64Max) :
    (files.foldlM (fun (sums : Nat × Nat) (file : Edit.ProjectedTarget T) => do
      let source ← fromOption (checkedAdd sums.1 file.projected.bytesBefore)
        (Edit.tooLargePlan "total source size overflow")
      let output ← fromOption (checkedAdd sums.2 file.projected.bytesAfter)
        (Edit.tooLargePlan "total output size overflow")
      return (source, output)) (source, output) : Except WorktreeError (Nat × Nat)) =
      .ok (source + (files.map fun file => file.projected.bytesBefore).sum,
        output + (files.map fun file => file.projected.bytesAfter).sum) := by
  induction files generalizing source output with
  | nil => rfl
  | cons file rest ih =>
      rw [List.map_cons, List.sum_cons, ← Nat.add_assoc] at sources outputs
      rw [List.foldlM_cons, List.map_cons, List.sum_cons, List.map_cons, List.sum_cons,
        ← Nat.add_assoc, ← Nat.add_assoc, ← ih _ _ sources outputs,
        checkedAdd_fits (show source + file.projected.bytesBefore ≤ u64Max by omega),
        checkedAdd_fits (show output + file.projected.bytesAfter ≤ u64Max by omega)]
      rfl

theorem validateAggregateOutput_fits (valid : options.validate = .ok ())
    (files : List (Edit.ProjectedTarget T))
    (sources : (files.map fun file => file.projected.bytesBefore).sum ≤
      options.limits.maxTotalSourceBytes)
    (outputs : (files.map fun file => file.projected.bytesAfter).sum ≤
      options.limits.maxTotalOutputBytes) :
    Edit.validateAggregateOutput files options = .ok () := by
  obtain ⟨_, _, _, machine, covered⟩ := WorktreeLimits.validate_sums
    (WorktreeOptions.validate_limits valid)
  have folded := aggregate_fits files 0 0 (by omega) (by omega)
  rw [Nat.zero_add, Nat.zero_add] at folded
  unfold Edit.validateAggregateOutput
  refine (congrArg (fun result => result >>= _) folded).trans ?_
  dsimp only [bind, Except.bind]
  rw [if_neg (Nat.not_lt.mpr outputs), checkedAdd_fits (by omega)]
  exact if_neg (by omega)

/-! ### The ceiling -/

theorem validateMetadata_code {crates : EditCrates T} {plan : EditPlan T}
    {limits : WorktreeLimits} {error : WorktreeError}
    (failed : Edit.validateMetadata crates plan limits = .error error) :
    error.code = .invalidPlan := by
  unfold Edit.validateMetadata at failed
  split at failed
  · cases failed
    rfl
  · dsimp only at failed
    cases visited : ((plan.extensions :: plan.files.flatMap fun file =>
        file.extensions :: file.edit.edits.map crates.editExtensions).foldlM
        (JsonBudget.visitMap crates.encodeExtensions) (JsonBudget.new
          ⟨limits.maxExtensionBytes, limits.maxExtensionNodes, limits.maxExtensionDepth⟩)) with
    | ok budget =>
        rw [visited] at failed
        cases failed
    | error message =>
        rw [visited] at failed
        cases failed
        rfl

/-- Within the machine's numbers the ceiling refuses nothing. -/
theorem validatePlan_ceiling {crates : EditCrates T} {plan : EditPlan T}
    (fits : options.limits.maxFiles * options.limits.maxEditsPerFile ≤ u64Max) :
    Edit.validatePlan crates plan options ≠
      .error (Edit.tooLargePlan "total edit limit overflow") := by
  intro refused
  unfold Edit.validatePlan at refused
  dsimp only at refused
  cases metadata : Edit.validateMetadata crates plan options.limits with
  | error error =>
      rw [metadata] at refused
      cases refused
      cases validateMetadata_code metadata
  | ok value =>
      rw [metadata, if_neg (Nat.not_lt.mpr fits)] at refused
      cases accepted : crates.validateWith plan
          { maxFiles := options.limits.maxFiles
            maxEditsPerFile := options.limits.maxEditsPerFile
            maxTotalEdits := options.limits.maxFiles * options.limits.maxEditsPerFile
            maxPathBytes := 4096
            maxTotalTextBytes := options.limits.maxTotalArtifactBytes } with
      | ok value =>
          simp only [bind, Except.bind, accepted] at refused
          cases refused
      | error message =>
          simp only [bind, Except.bind, accepted] at refused
          cases refused

/-! ### Probing -/

theorem error_ne {α : Type} {left right : WorktreeError} (differ : left.path ≠ right.path) :
    (.error left : Except WorktreeError α) ≠ .error right := by
  intro same
  cases same
  exact differ rfl

theorem preflight_fits {crates : EditCrates T} {host : Host} {weather : Weather}
    {known : World → Prop} {root : FsRoot} (machine : options.limits.maxTotalSourceBytes ≤ u64Max)
    {length : String → Nat} (files : List (FileEdit T × Nat))
    (long : ∀ entry ∈ files, Task.Yields (fsMachine host weather) (fun _ => False) known
      (probeAt crates.toCrates root entry.1.path) fun probe =>
        probe.bytes = length entry.1.path)
    (identities : List (FileIdentity × Nat)) (total : Nat)
    (fits : total + (files.map fun entry => length entry.1.path).sum ≤
      options.limits.maxTotalSourceBytes) :
    (Edit.preflight crates root options identities total files).run.Upholds
      (fsMachine host weather) (fun _ => False) known fun result =>
        result ≠ .error (Edit.tooLargePlan "total source size overflow") := by
  induction files generalizing identities total with
  | nil =>
      unfold Edit.preflight
      intro impossible
      cases impossible
  | cons entry rest ih =>
      obtain ⟨file, index⟩ := entry
      rw [List.map_cons, List.sum_cons, ← Nat.add_assoc] at fits
      have here := long (file, index) List.mem_cons_self
      unfold Task.Yields probeAt at here
      rw [Task.upholds_except_bind] at here
      unfold Edit.preflight
      rw [Task.upholds_except_bind, orElse, Task.upholds_except_adapt]
      refine here.mono fun opened probes => ?_
      cases opened with
      | error error => exact error_ne (by intro same; cases same)
      | ok access =>
          dsimp only [Except.mapError] at probes ⊢
          rw [Task.upholds_except_bind, orElse, Task.upholds_except_adapt]
          refine probes.mono fun probed sized => ?_
          cases probed with
          | error error => exact error_ne (by intro same; cases same)
          | ok probe =>
              dsimp only [Except.mapError]
              have same : probe.bytes = length file.path := sized probe rfl
              have small : total + probe.bytes ≤ options.limits.maxTotalSourceBytes := by
                dsimp only at fits
                omega
              by_cases large : probe.bytes > options.limits.maxSourceBytesPerFile
              · rw [if_pos large]
                exact error_ne (by intro same; cases same)
              · rw [if_neg large, checkedAdd_fits (Nat.le_trans small machine)]
                change Task.Upholds _ _ _ (ExceptT.run (if total + probe.bytes >
                  options.limits.maxTotalSourceBytes then _ else _)) _
                rw [if_neg (Nat.not_lt.mpr small)]
                cases identities.lookup probe.identity with
                | some first => exact error_ne (by intro same; cases same)
                | none =>
                    dsimp only
                    rw [Task.upholds_except_bind]
                    have further := ih (fun entry among => long entry (List.mem_cons_of_mem _ among))
                      ((probe.identity, index) :: identities) (total + probe.bytes) (by
                        rw [same]
                        exact fits)
                    refine further.mono fun planned kept => ?_
                    cases planned with
                    | ok planned =>
                        intro impossible
                        cases impossible
                    | error error => exact kept

end

/-! ### The verdict -/

/-- A plan that no limit of validated options keeps out. -/
def singlePlan : EditPlan Unit :=
  ⟨"e", none, [⟨⟨"file", "", [()]⟩, []⟩], []⟩

def singleOperations : WorktreePlan Unit :=
  ⟨"e", [.modify ⟨"file", "", [()]⟩]⟩

theorem single_refused {options : WorktreeOptions} (valid : options.validate = .ok ())
    (large : options.limits.maxFiles * options.limits.maxEditsPerFile > u64Max) :
    Edit.validatePlan plainEditCrates singlePlan options =
      .error (Edit.tooLargePlan "total edit limit overflow") := by
  have positive := (WorktreeLimits.validate_sums (WorktreeOptions.validate_limits valid)).1
    ("max_operation_bytes", options.limits.maxOperationBytes) (by simp [WorktreeLimits.named])
  have one : singlePlan.operation.utf8ByteSize = 1 := by decide
  have metadata : Edit.validateMetadata plainEditCrates singlePlan options.limits = .ok () := by
    unfold Edit.validateMetadata
    have short : ¬ ((decide (singlePlan.operation.utf8ByteSize >
        options.limits.maxOperationBytes) || singlePlan.completeness.any fun value =>
          value.utf8ByteSize > options.limits.maxOperationBytes) = true) := by
      rw [one]
      simp only [singlePlan, Option.any_none, Bool.or_false, decide_eq_true_eq]
      omega
    rw [if_neg short]
    rfl
  unfold Edit.validatePlan
  simp only [metadata, bind, Except.bind]
  rw [if_pos large]
  rfl

theorem single_accepted {options : WorktreeOptions} (valid : options.validate = .ok ()) :
    ∃ fingerprint, validateContract plainEditCrates.toCrates singleOperations options =
      .ok fingerprint := by
  have limits := (WorktreeLimits.validate_sums (WorktreeOptions.validate_limits valid)).1
  have bytes := limits ("max_operation_bytes", options.limits.maxOperationBytes)
    (by simp [WorktreeLimits.named])
  have files := limits ("max_files", options.limits.maxFiles) (by simp [WorktreeLimits.named])
  have one : singleOperations.operation.utf8ByteSize = 1 := by decide
  refine ⟨Sha256.digest (utf8 "e"), ?_⟩
  have accepted : plainCrates.validateExecutorPlan singleOperations (planLimits options) =
      .ok (Sha256.digest (utf8 "e")) := by
    refine if_pos ⟨by decide, ?_, by simp [singleOperations], ?_⟩
    · rw [one]
      exact bytes
    · exact files
  unfold validateContract
  change (plainCrates.validateExecutorPlan singleOperations (planLimits options)).mapError _ = _
  rw [accepted]
  rfl

/-- Options that validate overflow nowhere exactly when the most edits there may
be in all the files is a number of the machine. -/
theorem neverOverflows_iff (options : WorktreeOptions) (valid : options.validate = .ok ()) :
    NeverOverflows options ↔
      options.limits.maxFiles * options.limits.maxEditsPerFile ≤ u64Max := by
  obtain ⟨positive, source, output, machine, covered⟩ :=
    WorktreeLimits.validate_sums (WorktreeOptions.validate_limits valid)
  have someSource := positive ("max_total_source_bytes", options.limits.maxTotalSourceBytes)
    (by simp [WorktreeLimits.named])
  have someOutput := positive ("max_total_output_bytes", options.limits.maxTotalOutputBytes)
    (by simp [WorktreeLimits.named])
  dsimp only at someSource someOutput
  constructor
  · intro never
    by_contra large
    exact never.ceiling plainEditCrates singlePlan singleOperations ⟨rfl, rfl⟩
      ⟨single_refused valid (Nat.lt_of_not_le large), single_accepted valid⟩
  · intro fits
    constructor
    · intro maxBytes among
      have bounded : maxBytes + 1 ≤ u64Max := by
        simp only [byteLimits, WorktreeOptions.maxBytes, List.mem_cons, List.not_mem_nil,
          or_false] at among
        omega
      exact checkedAdd_fits bounded
    · intro T crates host weather known root files length long together
      exact preflight_fits (by omega) files long [] 0 (by omega)
    · intro T files sources outputs
      exact validateAggregateOutput_fits valid files sources outputs
    · intro T crates given snapshots afters projects sources outputs
      have sourceMachine : options.limits.maxTotalSourceBytes ≤ u64Max := by omega
      have outputMachine : options.limits.maxTotalOutputBytes ≤ u64Max := by omega
      obtain ⟨gathered, found⟩ := gatherSources_fits sourceMachine snapshots {} 0 (by omega)
      obtain ⟨made, paths, put⟩ := gatherOutputs_fits outputMachine projects {} 0 (by omega)
      rw [Nat.zero_add] at found put
      exact ⟨⟨gathered, found⟩, ⟨made, paths, put⟩, checkedAdd_fits (by omega)⟩
    · rintro T crates plan operations _ ⟨refused, _⟩
      exact validatePlan_ceiling fits refused

theorem neverOverflows_iff_default :
    NeverOverflows plainOptions ↔
      plainOptions.limits.maxFiles * plainOptions.limits.maxEditsPerFile ≤ u64Max :=
  neverOverflows_iff plainOptions rfl

/-- Half the numbers of the machine for the files, and two edits in each. -/
def wideOptions : WorktreeOptions :=
  ⟨{ WorktreeLimits.default with maxFiles := 2 ^ 63, maxEditsPerFile := 2 }, 1⟩

/-- One engine refuses a plan for the ceiling that the other accepts. -/
theorem wide_overflows :
    wideOptions.validate = .ok () ∧
      Edit.validatePlan plainEditCrates singlePlan wideOptions =
        .error (Edit.tooLargePlan "total edit limit overflow") ∧
      (∃ fingerprint, validateContract plainEditCrates.toCrates singleOperations wideOptions =
        .ok fingerprint) ∧
      ¬ NeverOverflows wideOptions := by
  have valid : wideOptions.validate = .ok () := rfl
  have large : wideOptions.limits.maxFiles * wideOptions.limits.maxEditsPerFile > u64Max := by
    decide
  refine ⟨valid, single_refused valid large, single_accepted valid, fun never => ?_⟩
  exact never.ceiling plainEditCrates singlePlan singleOperations ⟨rfl, rfl⟩
    ⟨single_refused valid large, single_accepted valid⟩

end Worktree
