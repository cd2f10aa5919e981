import Worktree.Operation.Replaying
import Mathlib.Data.List.Perm.Basic
/-
What recovery may rely on in a journal that was accepted.

The paths are ordered and named by the transaction, the ends of the operations
are exactly the states of the paths, and commits and rollbacks nest.
-/

namespace Worktree

open CrashLogic

/-! ### Ends of operations and of paths -/

/-- A path with the hash and the size of the file an operation has there. -/
def endpoint (path sha256 : Option String) (bytes : Nat) : Option (String × EndpointEvidence) := do
  let path ← path
  let sha256 ← sha256
  let sha256 ← Sha256Hash.parse sha256
  return (path, ⟨sha256, bytes⟩)

/-- The end of an operation before or after it, when the record is one. -/
def Record.endpoint? (before : Bool) : Record → Option (String × EndpointEvidence)
  | .operation _ kind source destination oldSha256 newSha256 bytesBefore bytesAfter _ =>
      if before then endpoint source oldSha256 bytesBefore
      else endpoint (if kind = "MODIFY" then source else destination) newSha256 bytesAfter
  | _ => none

def RecoveryPath.state (before : Bool) (path : RecoveryPath) : StateSpec :=
  if before then path.before else path.after

def RecoveryPath.endpoint? (before : Bool) (path : RecoveryPath) :
    Option (String × EndpointEvidence) :=
  (path.state before).present?.map fun spec => (path.path, ⟨spec.sha256, spec.bytes⟩)

def ExpectedPath.side (before : Bool) (expected : ExpectedPath) : Option EndpointEvidence :=
  if before then expected.before else expected.after

def ExpectedPath.withSide (before : Bool) (evidence : EndpointEvidence)
    (expected : ExpectedPath) : ExpectedPath :=
  if before then { expected with before := some evidence }
  else { expected with after := some evidence }

@[simp] theorem ExpectedPath.withSide_path (before : Bool) (evidence : EndpointEvidence)
    (expected : ExpectedPath) : (expected.withSide before evidence).path = expected.path := by
  cases before <;> rfl

@[simp] theorem ExpectedPath.side_withSide (before side : Bool) (evidence : EndpointEvidence)
    (expected : ExpectedPath) : (expected.withSide before evidence).side side =
      if side = before then some evidence else expected.side side := by
  cases before <;> cases side <;> rfl

namespace Replay

variable {T : Type} {crates : Crates T} {replay after : Replay} {past : List Record}

/-! ### Registering ends -/

/-- The paths of the operations hold exactly these ends. -/
structure Owns (crates : Crates T) (ends : Bool → List (String × EndpointEvidence))
    (paths : KeyMap ExpectedPath) : Prop where
  keyed : ∀ (key : String) (expected : ExpectedPath), paths[key]? = some expected →
    crates.portablePathKey expected.path = key
  recorded : ∀ (key : String) (expected : ExpectedPath), paths[key]? = some expected →
    ∀ before evidence,
      expected.side before = some evidence ↔ (expected.path, evidence) ∈ ends before
  listed : ∀ before path evidence, (path, evidence) ∈ ends before →
    ∃ expected, paths[crates.portablePathKey path]? = some expected ∧ expected.path = path

/-- The keys of one role, each taken once. -/
structure Takes (crates : Crates T) (ends : List (String × EndpointEvidence))
    (roles : Finset String) : Prop where
  keys : ∀ key, key ∈ roles ↔ key ∈ ends.map fun found => crates.portablePathKey found.1
  once : (ends.map fun found => crates.portablePathKey found.1).Nodup

/-- The ends with one more on a side. -/
def extend (ends : Bool → List (String × EndpointEvidence)) (before : Bool)
    (found : Option (String × EndpointEvidence)) : Bool → List (String × EndpointEvidence) :=
  fun side => if side = before then ends side ++ found.toList else ends side

theorem registerEndpoint_ok {path sha256 : String} {before : Bool} {bytes : Nat}
    {paths : KeyMap ExpectedPath} {roles : Finset String}
    {found : KeyMap ExpectedPath × Finset String}
    (registered : registerEndpoint crates path before sha256 bytes paths roles = .ok found) :
    ∃ hash, Sha256Hash.parse sha256 = some hash ∧ crates.portablePathKey path ∉ roles ∧
      (paths[crates.portablePathKey path]?.getD ⟨path, none, none⟩).path = path ∧
      found = (paths.insert (crates.portablePathKey path)
          ((paths[crates.portablePathKey path]?.getD ⟨path, none, none⟩).withSide before
            ⟨hash, bytes⟩),
        insert (crates.portablePathKey path) roles) := by
  unfold registerEndpoint at registered
  simp only [bind_ok_iff, require_ok_iff, fromOption_ok_iff, exists_and_left, exists_const,
    decide_eq_true_eq] at registered
  obtain ⟨_, _, fresh, same, hash, parsed, ended⟩ := registered
  cases ended
  exact ⟨hash, parsed, fresh, same, rfl⟩

theorem Takes.snoc {ends : List (String × EndpointEvidence)} {roles : Finset String}
    (takes : Takes crates ends roles) {path : String} (evidence : EndpointEvidence)
    (fresh : crates.portablePathKey path ∉ roles) :
    Takes crates (ends ++ [(path, evidence)]) (insert (crates.portablePathKey path) roles) := by
  constructor
  · intro key
    rw [Finset.mem_insert, takes.keys key, List.map_append, List.mem_append, or_comm]
    simp
  · rw [List.map_append]
    refine List.Nodup.append takes.once (List.nodup_singleton _) ?_
    intro key among last
    rw [List.map_cons, List.map_nil, List.mem_singleton] at last
    subst last
    exact fresh ((takes.keys _).mpr among)

/-- A path that is not registered has no end yet. -/
theorem Owns.unlisted {ends : Bool → List (String × EndpointEvidence)}
    {paths : KeyMap ExpectedPath} (owns : Owns crates ends paths) {path : String}
    (missing : paths[crates.portablePathKey path]? = none) (before : Bool)
    (evidence : EndpointEvidence) : (path, evidence) ∉ ends before := by
  intro among
  obtain ⟨expected, found, _⟩ := owns.listed before path evidence among
  rw [missing] at found
  cases found

theorem Owns.snoc {ends : Bool → List (String × EndpointEvidence)} {paths : KeyMap ExpectedPath}
    {roles : Finset String} {before : Bool} (owns : Owns crates ends paths)
    (takes : Takes crates (ends before) roles) {path : String} (evidence : EndpointEvidence)
    (fresh : crates.portablePathKey path ∉ roles)
    (same : (paths[crates.portablePathKey path]?.getD ⟨path, none, none⟩).path = path) :
    Owns crates (extend ends before (some (path, evidence)))
      (paths.insert (crates.portablePathKey path)
        ((paths[crates.portablePathKey path]?.getD ⟨path, none, none⟩).withSide before
          evidence)) := by
  -- no end of this role lies at the key
  have none_before : ∀ other, (path, other) ∉ ends before := by
    intro other among
    exact fresh ((takes.keys _).mpr (List.mem_map.mpr ⟨_, among, rfl⟩))
  have old_side : ∀ side other,
      (paths[crates.portablePathKey path]?.getD ⟨path, none, none⟩).side side = some other ↔
        (path, other) ∈ ends side := by
    intro side other
    cases found : paths[crates.portablePathKey path]? with
    | none =>
        constructor
        · intro impossible
          cases side <;> cases impossible
        · intro among
          exact absurd among (owns.unlisted found side other)
    | some expected =>
        rw [found] at same
        have recorded := owns.recorded _ expected found side other
        change expected.path = path at same
        rw [same] at recorded
        exact recorded
  constructor
  · intro key expected found
    rw [Std.TreeMap.getElem?_insert] at found
    split at found
    · next equal =>
        cases found
        rw [ExpectedPath.withSide_path, same]
        exact Std.LawfulEqCmp.eq_of_compare equal
    · exact owns.keyed key expected found
  · intro key expected found side other
    rw [Std.TreeMap.getElem?_insert] at found
    split at found
    · cases found
      rw [ExpectedPath.side_withSide, ExpectedPath.withSide_path, same]
      unfold extend
      by_cases here : side = before
      · subst here
        simp only [if_true, Option.toList_some, List.mem_append, List.mem_singleton,
          none_before other, false_or, Prod.mk.injEq, true_and, Option.some.injEq]
        exact eq_comm
      · simp only [if_neg here]
        exact old_side side other
    · next different =>
        have elsewhere : expected.path ≠ path := by
          intro equal
          have keyed := owns.keyed key expected found
          rw [equal] at keyed
          exact different (by rw [keyed]; exact Std.ReflCmp.compare_self)
        rw [owns.recorded key expected found side other]
        unfold extend
        split
        · simp [elsewhere]
        · rfl
  · intro side other found among
    rw [Std.TreeMap.getElem?_insert]
    by_cases here : crates.portablePathKey path = crates.portablePathKey other
    · rw [if_pos (by rw [here]; exact Std.ReflCmp.compare_self)]
      refine ⟨_, rfl, ?_⟩
      rw [ExpectedPath.withSide_path, same]
      unfold extend at among
      split at among
      · next at_side =>
          rcases List.mem_append.mp among with old | last
          · subst at_side
            exact absurd ((takes.keys _).mpr (List.mem_map.mpr ⟨_, old, rfl⟩)) (here ▸ fresh)
          · cases List.mem_singleton.mp last
            rfl
      · obtain ⟨expected, known, named⟩ := owns.listed side other found among
        rw [here, known] at same
        exact same.symm.trans named
    · rw [if_neg fun equal => here (Std.LawfulEqCmp.eq_of_compare equal)]
      refine owns.listed side other found ?_
      unfold extend at among
      split at among
      · next at_side =>
          rcases List.mem_append.mp among with old | last
          · exact old
          · cases List.mem_singleton.mp last
            exact absurd rfl here
      · exact among

/-- The ends recorded so far, and the keys of both roles. -/
structure Owned (crates : Crates T) (past : List Record) (replay : Replay) : Prop where
  paths : Owns crates (fun before => past.filterMap (Record.endpoint? before))
    replay.expectedPaths
  inputs : Takes crates (past.filterMap (Record.endpoint? true)) replay.inputs
  outputs : Takes crates (past.filterMap (Record.endpoint? false)) replay.outputs

theorem filterMap_endpoint (before : Bool) (record : Record) :
    (past ++ [record]).filterMap (Record.endpoint? before) =
      past.filterMap (Record.endpoint? before) ++ (record.endpoint? before).toList := by
  rw [List.filterMap_append]
  cases found : record.endpoint? before <;> simp [found]

/-- Records other than operations own nothing. -/
theorem Owned.snoc (owned : Owned crates past replay) {record : Record}
    (nothing : ∀ before, record.endpoint? before = none)
    (paths : after.expectedPaths = replay.expectedPaths) (inputs : after.inputs = replay.inputs)
    (outputs : after.outputs = replay.outputs) : Owned crates (past ++ [record]) after := by
  have same : ∀ before, (past ++ [record]).filterMap (Record.endpoint? before) =
      past.filterMap (Record.endpoint? before) := by
    intro before
    rw [filterMap_endpoint, nothing before, Option.toList_none, List.append_nil]
  constructor
  · simp only [same, paths]
    exact owned.paths
  · rw [same, inputs]
    exact owned.inputs
  · rw [same, outputs]
    exact owned.outputs

/-- Registering what there is of an end. -/
def register (crates : Crates T) (before : Bool) (path sha256 : Option String) (bytes : Nat)
    (paths : KeyMap ExpectedPath) (roles : Finset String) :
    Except WorktreeError (KeyMap ExpectedPath × Finset String) :=
  match path, sha256 with
  | some path, some hash => registerEndpoint crates path before hash bytes paths roles
  | _, _ => .ok (paths, roles)

theorem registerSource_eq (source oldSha256 : Option String) (bytes : Nat) :
    registerSource crates replay source oldSha256 bytes =
      (register crates true source oldSha256 bytes replay.expectedPaths replay.inputs).map
        fun found => { replay with expectedPaths := found.1, inputs := found.2 } := by
  cases source <;> cases oldSha256 <;> rfl

theorem registerOutput_eq (destination newSha256 : Option String) (bytes : Nat) :
    registerOutput crates replay destination newSha256 bytes =
      (register crates false destination newSha256 bytes replay.expectedPaths
        replay.outputs).map
        fun found => { replay with expectedPaths := found.1, outputs := found.2 } := by
  cases destination <;> cases newSha256 <;> rfl

theorem extend_none (ends : Bool → List (String × EndpointEvidence)) (before : Bool) :
    extend ends before none = ends := by
  funext side
  unfold extend
  split <;> simp

theorem register_owns {ends : Bool → List (String × EndpointEvidence)} {before : Bool}
    {path sha256 : Option String} {bytes : Nat} {paths : KeyMap ExpectedPath}
    {roles : Finset String} {found : KeyMap ExpectedPath × Finset String}
    (owns : Owns crates ends paths) (takes : Takes crates (ends before) roles)
    (registered : register crates before path sha256 bytes paths roles = .ok found) :
    Owns crates (extend ends before (endpoint path sha256 bytes)) found.1 ∧
      Takes crates (ends before ++ (endpoint path sha256 bytes).toList) found.2 := by
  have untouched (nothing : endpoint path sha256 bytes = none) (same : (paths, roles) = found) :
      Owns crates (extend ends before (endpoint path sha256 bytes)) found.1 ∧
        Takes crates (ends before ++ (endpoint path sha256 bytes).toList) found.2 := by
    subst same
    rw [nothing, extend_none, Option.toList_none, List.append_nil]
    exact ⟨owns, takes⟩
  cases path with
  | none => exact untouched rfl (Except.ok.inj registered)
  | some path =>
      cases sha256 with
      | none => exact untouched rfl (Except.ok.inj registered)
      | some sha256 =>
          obtain ⟨hash, parsed, fresh, named, rfl⟩ := registerEndpoint_ok registered
          have found : endpoint (some path) (some sha256) bytes = some (path, ⟨hash, bytes⟩) := by
            simp [endpoint, parsed]
          rw [found]
          exact ⟨owns.snoc takes _ fresh named, takes.snoc _ fresh⟩

theorem map_ok_iff {ε α β : Type} {result : Except ε α} {change : α → β} {value : β} :
    result.map change = .ok value ↔ ∃ found, result = .ok found ∧ change found = value := by
  cases result <;> simp [Except.map]

theorem parseKind_ok {kind : String} {found : OperationKind}
    (parsed : parseKind kind = .ok found) : found = .modify ↔ kind = "MODIFY" := by
  unfold parseKind at parsed
  split at parsed
  · next same =>
      cases parsed
      simp [same]
  · next different =>
      refine ⟨fun modify => ?_, fun same => absurd same different⟩
      subst modify
      split at parsed
      · cases parsed
      · split at parsed
        · cases parsed
        · split at parsed <;> cases parsed

/-- An operation registers its source, then its output. -/
theorem applyOperation_owned {index : Nat} {kind : String}
    {source destination oldSha256 newSha256 : Option String}
    {bytesBefore bytesAfter editCount : Nat} (owned : Owned crates past replay)
    (applied : applyOperation crates replay index kind source destination oldSha256 newSha256
      bytesBefore bytesAfter editCount = .ok after) :
    Owned crates (past ++ [.operation index kind source destination oldSha256 newSha256 bytesBefore
      bytesAfter editCount]) after := by
  unfold applyOperation validateOperation at applied
  simp only [bind_ok_iff, requirePhase_ok_iff, require_ok_iff, exists_and_left, exists_const,
    registerSource_eq, registerOutput_eq, map_ok_iff] at applied
  obtain ⟨_, _, last, ⟨found, parsed, _, middle, ⟨first, entered, rfl⟩, second, left, rfl⟩,
    same⟩ := applied
  cases same
  obtain ⟨paths, inputs⟩ := register_owns owned.paths owned.inputs entered
  have outputs : Takes crates (extend (fun before => past.filterMap (Record.endpoint? before))
      true (endpoint source oldSha256 bytesBefore) false) replay.outputs := owned.outputs
  obtain ⟨paths, outputs⟩ := register_owns paths outputs left
  simp only [parseKind_ok parsed] at paths outputs
  constructor
  · refine Eq.mp (congrArg (fun ends => Owns crates ends second.1) (funext fun before => ?_)) paths
    rw [filterMap_endpoint]
    cases before <;> rfl
  · rw [filterMap_endpoint]
    exact inputs
  · rw [filterMap_endpoint]
    exact outputs

/-! ### Paths in order -/

/-- The artifacts of a path are named for it, and it does change something. -/
structure Named (transactionId : String) (path : RecoveryPath) : Prop where
  stage : path.stageName =
    if path.after.isPresent then some (artifactName transactionId path.index "stage") else none
  backup : path.backupName =
    if path.before.isPresent then some (artifactName transactionId path.index "backup") else none
  changes : ¬ (path.before = .absent ∧ path.after = .absent)

structure Arranged (crates : Crates T) (replay : Replay) : Prop where
  keys : ∀ key, key ∈ replay.pathKeys ↔
    key ∈ replay.paths.map fun path => crates.portablePathKey path.path
  increasing : (replay.paths.map fun path => crates.portablePathKey path.path).Pairwise (· < ·)
  named : ∀ path ∈ replay.paths, Named replay.transactionId path

theorem Arranged.same (arranged : Arranged crates replay) (paths : after.paths = replay.paths)
    (pathKeys : after.pathKeys = replay.pathKeys)
    (transactionId : after.transactionId = replay.transactionId) : Arranged crates after := by
  constructor
  · rw [pathKeys, paths]
    exact arranged.keys
  · rw [paths]
    exact arranged.increasing
  · rw [paths, transactionId]
    exact arranged.named

theorem validateArtifactContract_ok {transactionId : String} {index : Nat}
    {before after : StateSpec} {stageName backupName : Option String} {value : Unit}
    (valid : validateArtifactContract transactionId index before after stageName backupName =
      .ok value) :
    stageName = (if after.isPresent then some (artifactName transactionId index "stage")
      else none) ∧
    backupName = (if before.isPresent then some (artifactName transactionId index "backup")
      else none) ∧ ¬ (before = .absent ∧ after = .absent) := by
  unfold validateArtifactContract at valid
  rw [require_ok_iff] at valid
  simp only [Bool.and_eq_true, decide_eq_true_eq, Bool.not_eq_true', Bool.and_eq_false_imp,
    decide_eq_false_iff_not, and_assoc] at valid
  obtain ⟨stage, backup, changes⟩ := valid
  exact ⟨stage, backup, fun both => changes both.1 both.2⟩

/-- A checked intent has a key above all before it. -/
theorem checkIntent_arranged {index : Nat} {path : String} {before after : StateRecord}
    {stageName backupName : Option String} {found : Replay × StateSpec × StateSpec}
    (checked : checkIntent crates replay index path before after stageName backupName =
      .ok found) :
    found.1 = { replay with
      phase := .paths
      pathKeys := insert (crates.portablePathKey path) replay.pathKeys } ∧
    ∀ other ∈ replay.pathKeys, other < crates.portablePathKey path := by
  unfold checkIntent at checked
  simp only [bind_ok_iff, require_ok_iff, requirePhase_ok_iff, exists_and_left, exists_const,
    decide_eq_true_eq] at checked
  obtain ⟨entered, entering, phase, _, _, _, _, above, _, _, _, _, _, _, _, _, same⟩ := checked
  obtain ⟨_, rfl⟩ := enterPaths_ok entering phase
  cases same
  exact ⟨rfl, above⟩

theorem Arranged.snoc (arranged : Arranged crates replay) {path : RecoveryPath}
    (above : ∀ other ∈ replay.pathKeys, other < crates.portablePathKey path.path)
    (named : Named replay.transactionId path)
    (paths : after.paths = replay.paths ++ [path])
    (pathKeys : after.pathKeys = insert (crates.portablePathKey path.path) replay.pathKeys)
    (transactionId : after.transactionId = replay.transactionId) : Arranged crates after := by
  constructor
  · intro key
    rw [pathKeys, paths, Finset.mem_insert, arranged.keys key, List.map_append, List.mem_append,
      or_comm]
    simp
  · rw [paths, List.map_append, List.pairwise_append]
    refine ⟨arranged.increasing, List.pairwise_singleton _ _, ?_⟩
    intro key among last same
    rw [List.map_cons, List.map_nil, List.mem_singleton] at same
    subst same
    exact above key ((arranged.keys key).mpr among)
  · intro other among
    rw [paths] at among
    rw [transactionId]
    rcases List.mem_append.mp among with old | new
    · exact arranged.named other old
    · rw [List.mem_singleton.mp new]
      exact named

/-- Staging a path keeps everything the order is about. -/
theorem Arranged.stage (arranged : Arranged crates replay) {place : Nat} {path : RecoveryPath}
    (found : replay.paths[place]? = some path) (stageIdentity backupIdentity : Option FileIdentity)
    (paths : after.paths = replay.paths.set place
      { path with stageIdentity, backupIdentity, staged := true })
    (pathKeys : after.pathKeys = replay.pathKeys)
    (transactionId : after.transactionId = replay.transactionId) : Arranged crates after := by
  have same : (after.paths.map fun path => crates.portablePathKey path.path) =
      replay.paths.map fun path => crates.portablePathKey path.path := by
    rw [paths, List.map_set]
    apply List.ext_getElem?
    intro other
    rw [List.getElem?_set]
    split
    · next here =>
        subst here
        rw [List.length_map, List.getElem?_map, found]
        simp [(List.getElem?_eq_some_iff.mp found).1]
    · rfl
  constructor
  · rw [pathKeys, same]
    exact arranged.keys
  · rw [same]
    exact arranged.increasing
  · intro other among
    rw [paths] at among
    rw [transactionId]
    rcases List.mem_or_eq_of_mem_set among with old | rfl
    · exact arranged.named other old
    · have before := arranged.named path (List.mem_of_getElem? found)
      exact ⟨before.stage, before.backup, before.changes⟩

/-! ### Commits and rollbacks -/

/-- Paths are restored from the last to the first, one after the other. -/
structure Nested (replay : Replay) : Prop where
  untouched : replay.lastRollbackIntent = none → replay.rollbackIntents = ∅
  least : ∀ index, replay.lastRollbackIntent = some index →
    ∀ other ∈ replay.rollbackIntents, index ≤ other
  pending : ∀ index ∈ replay.rollbackIntents, index ∉ replay.rolledBack →
    replay.lastRollbackIntent = some index
  whole : replay.finished = some .committed →
    ∀ index, index < replay.paths.length → index ∈ replay.commitIntents

structure Checked (crates : Crates T) (past : List Record) (replay : Replay) : Prop where
  owned : Owned crates past replay
  arranged : Arranged crates replay
  nested : Nested replay

theorem rollbackIntent_nested {index : Nat} (nested : Nested replay)
    (unfinished : replay.finished = none) (applied : replay.rollbackIntent index = .ok after) :
    Nested after := by
  obtain ⟨_, _, last, _, rfl⟩ := rollbackIntent_ok_iff.mp applied
  constructor
  · intro impossible
    cases impossible
  · intro other same
    cases same
    intro other among
    rcases Finset.mem_insert.mp among with rfl | earlier
    · exact le_rfl
    · cases before : replay.lastRollbackIntent with
      | none =>
          rw [nested.untouched before] at earlier
          cases earlier
      | some previous =>
          have above := nested.least previous before other earlier
          have below := (last previous before).2
          omega
  · intro other among still
    rcases Finset.mem_insert.mp among with rfl | earlier
    · rfl
    · have open' := nested.pending other earlier still
      exact absurd (last other open').1 still
  · intro impossible
    change replay.finished = some .committed at impossible
    rw [unfinished] at impossible
    cases impossible

theorem applyRolledBack_nested {index : Nat} (nested : Nested replay)
    (applied : replay.applyRolledBack index = .ok after) : Nested after := by
  obtain ⟨_, _, _, _, rfl⟩ := applyRolledBack_ok_iff.mp applied
  exact {
    nested with
    pending := fun other among still =>
      nested.pending other among fun done => still (Finset.mem_insert_of_mem done) }

/-- A committed transaction announced every path: its intents are as many. -/
theorem applyFinished_nested {outcome : FinishOutcome} (nested : Nested replay)
    (orderly : Orderly replay) (applied : replay.applyFinished outcome = .ok after) :
    Nested after := by
  obtain ⟨bears, rfl⟩ := applyFinished_ok_iff.mp applied
  refine { nested with whole := fun same index bound => ?_ }
  cases same
  obtain ⟨_, counted, complete⟩ := bears
  have within : replay.commitIntents ⊆ Finset.range replay.paths.length :=
    fun other among => Finset.mem_range.mpr (orderly.bounded other among)
  have all : replay.commitIntents = Finset.range replay.paths.length := by
    refine Finset.eq_of_subset_of_card_le within ?_
    rw [Finset.card_range, complete, counted]
  change index ∈ replay.commitIntents
  rw [all]
  exact Finset.mem_range.mpr bound

/-! ### Every record -/

variable {record : Record} {host : Host} {weather : Weather}

/-- Records that leave the paths, the ends and the rollbacks as they are. -/
theorem Checked.same (checked : Checked crates past replay)
    (unfinished : replay.finished = none) (nothing : ∀ before, record.endpoint? before = none)
    (arranged : Arranged crates after) (expected : after.expectedPaths = replay.expectedPaths)
    (inputs : after.inputs = replay.inputs) (outputs : after.outputs = replay.outputs)
    (rollbacks : after.rollbackIntents = replay.rollbackIntents)
    (rolledBack : after.rolledBack = replay.rolledBack)
    (last : after.lastRollbackIntent = replay.lastRollbackIntent)
    (finished : after.finished = replay.finished) : Checked crates (past ++ [record]) after := by
  refine ⟨checked.owned.snoc nothing expected inputs outputs, arranged, ?_⟩
  constructor
  · rw [last, rollbacks]
    exact checked.nested.untouched
  · rw [last, rollbacks]
    exact checked.nested.least
  · rw [last, rollbacks, rolledBack]
    exact checked.nested.pending
  · intro impossible
    rw [finished, unfinished] at impossible
    cases impossible

theorem pathIntent_checks {index : Nat} {path : String} {before after : StateRecord}
    {stageName backupName : Option String} (checked : Checked crates past replay)
    (unfinished : replay.finished = none) :
    Reads host weather (replay.pathIntent crates index path before after stageName backupName)
      (Checked crates (past ++ [.pathIntent index path before after stageName backupName])) := by
  unfold pathIntent
  refine Task.Yields.bind (liftWorktree_reads fun _ => id) fun found accepted => ?_
  obtain ⟨middle, before', after'⟩ := found
  obtain ⟨same, above⟩ := checkIntent_arranged accepted
  obtain ⟨intends, _⟩ := checkIntent_ok accepted
  dsimp only at intends same
  subst same
  refine Task.Yields.bind (Task.yields_adapt (openTarget_reads _ _)) fun access opened => ?_
  obtain ⟨stage, backup, changes⟩ := validateArtifactContract_ok intends.artifacts
  refine Task.yields_pure _ ?_
  refine checked.same unfinished (fun _ => rfl) ?_ rfl rfl rfl rfl rfl rfl rfl
  exact checked.arranged.snoc above ⟨stage, backup, changes⟩ rfl rfl rfl

theorem applyRecord_checks (replays : Replays past replay) (checked : Checked crates past replay)
    (record : Record) : Reads host weather (applyRecord crates replay record)
      (Checked crates (past ++ [record])) := by
  unfold applyRecord
  refine yields_check fun open' => ?_
  have unfinished := replays.orderly.ne_finished open'
  cases record with
  | header => exact Task.yields_throw _
  | operation =>
      refine liftWorktree_reads fun after applied => ?_
      have owned := applyOperation_owned checked.owned applied
      obtain ⟨_, expectedPaths, inputs, outputs, rfl⟩ := applyOperation_ok applied
      exact ⟨owned, checked.arranged.same rfl rfl rfl, { checked.nested with }⟩
  | pathIntent => exact pathIntent_checks checked unfinished
  | pathStaged index stageIdentity backupIdentity =>
      refine liftWorktree_reads fun after applied => ?_
      obtain ⟨_, path, among, _, _, _, rfl⟩ := pathStaged_ok applied
      refine checked.same unfinished (fun _ => rfl) ?_ rfl rfl rfl rfl rfl rfl rfl
      exact checked.arranged.stage among stageIdentity backupIdentity rfl rfl rfl
  | prepared =>
      refine liftWorktree_reads fun after applied => ?_
      obtain ⟨_, _, _, rfl⟩ := applyPrepared_ok applied
      exact checked.same unfinished (fun _ => rfl) (checked.arranged.same rfl rfl rfl)
        rfl rfl rfl rfl rfl rfl rfl
  | commitIntent =>
      refine liftWorktree_reads fun after applied => ?_
      obtain ⟨_, _, _, _, rfl⟩ := commitIntent_ok_iff.mp applied
      exact checked.same unfinished (fun _ => rfl) (checked.arranged.same rfl rfl rfl)
        rfl rfl rfl rfl rfl rfl rfl
  | committed =>
      refine liftWorktree_reads fun after applied => ?_
      obtain ⟨_, _, _, _, rfl⟩ := applyCommitted_ok_iff.mp applied
      exact checked.same unfinished (fun _ => rfl) (checked.arranged.same rfl rfl rfl)
        rfl rfl rfl rfl rfl rfl rfl
  | rollbackIntent =>
      refine liftWorktree_reads fun after applied => ?_
      have nested := rollbackIntent_nested checked.nested unfinished applied
      obtain ⟨_, _, _, _, rfl⟩ := rollbackIntent_ok_iff.mp applied
      exact ⟨checked.owned.snoc (fun _ => rfl) rfl rfl rfl, checked.arranged.same rfl rfl rfl,
        nested⟩
  | rolledBack =>
      refine liftWorktree_reads fun after applied => ?_
      have nested := applyRolledBack_nested checked.nested applied
      obtain ⟨_, _, _, _, rfl⟩ := applyRolledBack_ok_iff.mp applied
      exact ⟨checked.owned.snoc (fun _ => rfl) rfl rfl rfl, checked.arranged.same rfl rfl rfl,
        nested⟩
  | finished =>
      refine liftWorktree_reads fun after applied => ?_
      have nested := applyFinished_nested checked.nested replays.orderly applied
      obtain ⟨_, rfl⟩ := applyFinished_ok_iff.mp applied
      exact ⟨checked.owned.snoc (fun _ => rfl) rfl rfl rfl, checked.arranged.same rfl rfl rfl,
        nested⟩

theorem applyRecords_checks (replays : Replays past replay) (checked : Checked crates past replay)
    (records : List Record) : Reads host weather (applyRecords crates replay records)
      (Checked crates (past ++ records)) := by
  induction records generalizing past replay with
  | nil =>
      rw [List.append_nil]
      exact Task.yields_pure _ checked
  | cons record rest ih =>
      refine Task.Yields.bind ((applyRecord_replays replays record).and
        (applyRecord_checks replays checked record)) fun middle so_far => ?_
      have tail := ih so_far.1 so_far.2
      rw [List.append_assoc] at tail
      exact tail

theorem new_checks (root : FsRoot) (options : WorktreeOptions) (header : Header) :
    Checked crates [] (new root options header) := by
  refine ⟨⟨⟨?_, ?_, ?_⟩, ⟨?_, ?_⟩, ⟨?_, ?_⟩⟩, ⟨?_, ?_, ?_⟩, ⟨?_, ?_, ?_, ?_⟩⟩
  all_goals simp [new]

/-! ### The parsed journal -/

theorem matchesEndpoint_iff {expected : Option EndpointEvidence} {state : StateSpec} :
    matchesEndpoint expected state = true ↔
      expected = state.present?.map fun spec => ⟨spec.sha256, spec.bytes⟩ := by
  cases expected with
  | none => cases state <;> simp [matchesEndpoint, StateSpec.present?]
  | some evidence =>
      cases state with
      | absent => simp [matchesEndpoint, StateSpec.present?]
      | present spec =>
          obtain ⟨sha256, bytes⟩ := evidence
          simp [matchesEndpoint, StateSpec.present?]

theorem validateExpectedPath_ok {expected : KeyMap ExpectedPath} {path : RecoveryPath}
    {value : Unit}
    (valid : validateExpectedPath crates expected path.path path.before path.after = .ok value) :
    ∃ owner, expected[crates.portablePathKey path.path]? = some owner ∧ owner.path = path.path ∧
      ∀ before, owner.side before =
        (path.state before).present?.map fun spec => ⟨spec.sha256, spec.bytes⟩ := by
  unfold validateExpectedPath at valid
  split at valid
  · cases valid
  · next owner found =>
      rw [require_ok_iff] at valid
      simp only [Bool.and_eq_true, decide_eq_true_eq, matchesEndpoint_iff, and_assoc] at valid
      obtain ⟨named, before, after⟩ := valid
      refine ⟨owner, found, named, fun side => ?_⟩
      cases side with
      | true => exact before
      | false => exact after

theorem forM_ok {ε α : Type} {items : List α} {body : α → Except ε Unit} {value : Unit}
    (passed : items.forM body = .ok value) : ∀ item ∈ items, body item = .ok () := by
  induction items with
  | nil =>
      intro item impossible
      cases impossible
  | cons first rest ih =>
      change (body first >>= fun _ => rest.forM body) = .ok value at passed
      obtain ⟨⟨⟩, here, later⟩ := bind_ok_iff.mp passed
      intro item among
      rcases List.mem_cons.mp among with rfl | further
      · exact here
      · exact ih later item further

/-- A map with as many keys as are listed has no other. -/
theorem key_listed {α : Type} {values : KeyMap α} {keys : List String} (distinct : keys.Nodup)
    (found : ∀ key ∈ keys, values[key]?.isSome = true) (sized : values.size = keys.length)
    {key : String} {value : α} (known : values[key]? = some value) : key ∈ keys := by
  have within : keys ⊆ values.keys := by
    intro other among
    rw [Std.TreeMap.mem_keys, Std.TreeMap.mem_iff_isSome_getElem?]
    exact found other among
  have all : keys.Perm values.keys := by
    refine (distinct.subperm within).perm_of_length_le ?_
    rw [Std.TreeMap.length_keys, sized]
  rw [all.mem_iff, Std.TreeMap.mem_keys, Std.TreeMap.mem_iff_isSome_getElem?, known]
  rfl

/-- The ends of the operations are the states of the paths, on either side. -/
theorem endpoints_perm (owned : Owned crates past replay) (arranged : Arranged crates replay)
    (valid : validateExpectedPaths crates replay.expectedPaths replay.paths = .ok ())
    (before : Bool) :
    (past.filterMap (Record.endpoint? before)).Perm
      (replay.paths.filterMap (RecoveryPath.endpoint? before)) := by
  unfold validateExpectedPaths at valid
  simp only [bind_ok_iff, require_ok_iff, decide_eq_true_eq, exists_and_left, exists_const] at valid
  obtain ⟨sized, valid⟩ := valid
  have owner := fun path among => validateExpectedPath_ok (forM_ok valid path among)
  have distinct : (replay.paths.map fun path => crates.portablePathKey path.path).Nodup := by
    refine List.Pairwise.imp ?_ arranged.increasing
    intro left right below same
    subst same
    exact String.lt_irrefl _ below
  have reached : ∀ (key : String) (expected : ExpectedPath),
      replay.expectedPaths[key]? = some expected →
        ∃ path ∈ replay.paths, crates.portablePathKey path.path = key := by
    intro key expected known
    refine List.mem_map.mp (key_listed distinct ?_ (by rw [sized, List.length_map]) known)
    intro other among
    obtain ⟨path, listed, rfl⟩ := List.mem_map.mp among
    obtain ⟨found, shown, _⟩ := owner path listed
    rw [shown]
    rfl
  have once : (past.filterMap (Record.endpoint? before)).Nodup := by
    cases before with
    | true => exact owned.inputs.once.of_map
    | false => exact owned.outputs.once.of_map
  have single : (replay.paths.filterMap (RecoveryPath.endpoint? before)).Nodup := by
    rw [List.Nodup, List.pairwise_filterMap]
    refine (List.pairwise_map.mp distinct).imp ?_
    intro path other different found shown found' shown' same
    subst same
    obtain ⟨_, _, rfl⟩ := Option.map_eq_some_iff.mp shown
    obtain ⟨_, _, equal⟩ := Option.map_eq_some_iff.mp shown'
    have named : other.path = path.path := congrArg Prod.fst equal
    exact different (by rw [named])
  refine (List.perm_ext_iff_of_nodup once single).mpr fun found => ?_
  obtain ⟨name, evidence⟩ := found
  rw [List.mem_filterMap (l := replay.paths)]
  constructor
  · intro among
    obtain ⟨expected, known, named⟩ := owned.paths.listed before name evidence among
    obtain ⟨path, listed, keyed⟩ := reached _ expected known
    obtain ⟨found, shown, same, sides⟩ := owner path listed
    rw [keyed, known] at shown
    cases shown
    have recorded := (owned.paths.recorded _ expected known before evidence).mpr (named ▸ among)
    refine ⟨path, listed, ?_⟩
    rw [sides before] at recorded
    obtain ⟨spec, present, rfl⟩ := Option.map_eq_some_iff.mp recorded
    unfold RecoveryPath.endpoint?
    rw [present, ← same, named]
    rfl
  · rintro ⟨path, listed, shown⟩
    obtain ⟨found, known, same, sides⟩ := owner path listed
    obtain ⟨spec, present, equal⟩ := Option.map_eq_some_iff.mp shown
    cases equal
    refine same ▸ (owned.paths.recorded _ found known before _).mp ?_
    rw [sides before, present]
    rfl

end Replay

/-- What holds of every journal that is accepted. -/
structure ParsedJournal.Sound {T : Type} (crates : Crates T) (records : List Record)
    (parsed : ParsedJournal) : Prop where
  placed : ∀ (index : Nat) (path : RecoveryPath), parsed.paths[index]? = some path →
    path.index = index
  increasing : (parsed.paths.map fun path => crates.portablePathKey path.path).Pairwise (· < ·)
  named : ∀ path ∈ parsed.paths, Replay.Named parsed.transactionId path
  reversal : parsed.rolledBack ⊆ parsed.rollbackIntents
  announcing : parsed.rollbackIntents ⊆ parsed.commitIntents
  bounded : ∀ index ∈ parsed.commitIntents, index < parsed.paths.length
  single : ∀ index ∈ parsed.rollbackIntents \ parsed.rolledBack,
    ∀ other ∈ parsed.rollbackIntents \ parsed.rolledBack, other = index
  smallest : ∀ index ∈ parsed.rollbackIntents \ parsed.rolledBack,
    ∀ other ∈ parsed.rollbackIntents, index ≤ other
  ready : parsed.commitIntents ≠ ∅ → parsed.prepared = true
  staged : parsed.prepared = true → ∀ path ∈ parsed.paths, path.staged = true ∧
    path.stageIdentity.isSome = path.after.isPresent ∧
    path.backupIdentity.isSome = path.before.isPresent
  owned : parsed.prepared = true → ∀ before,
    (records.filterMap (Record.endpoint? before)).Perm
      (parsed.paths.filterMap (RecoveryPath.endpoint? before))
  once : ∀ before, ((records.filterMap (Record.endpoint? before)).map
    fun found => crates.portablePathKey found.1).Nodup
  whole : parsed.finished = some .committed →
    ∀ index, index < parsed.paths.length → index ∈ parsed.commitIntents

theorem Replay.finish_sound {T : Type} {crates : Crates T} {replay : Replay} {past : List Record}
    {parsed : ParsedJournal} (replays : Replay.Replays past replay)
    (checked : Replay.Checked crates past replay)
    (finished : replay.finish crates = .ok parsed) : parsed.Sound crates past := by
  have tells := Replay.finish_tells replays finished
  have valid : replay.prepared = true →
      validateExpectedPaths crates replay.expectedPaths replay.paths = .ok () := by
    intro ready
    unfold Replay.finish at finished
    rw [if_pos ready] at finished
    obtain ⟨_, passed, _⟩ := bind_ok_iff.mp finished
    exact passed
  have came := Replay.finish_eq finished
  subst came
  obtain ⟨owned, arranged, nested⟩ := checked
  exact {
    placed := tells.placed
    increasing := arranged.increasing
    named := arranged.named
    reversal := tells.reversal
    announcing := tells.announcing
    bounded := tells.bounded
    single := by
      intro index among other also
      rw [Finset.mem_sdiff] at among also
      have last := nested.pending index among.1 among.2
      rw [nested.pending other also.1 also.2] at last
      cases last
      rfl
    smallest := by
      intro index among
      rw [Finset.mem_sdiff] at among
      exact nested.least index (nested.pending index among.1 among.2)
    ready := tells.ready
    staged := by
      intro prepared path among
      obtain ⟨staged, stages⟩ := tells.staged prepared path among
      exact ⟨staged, stages.stage, stages.backup⟩
    owned := fun prepared before => Replay.endpoints_perm owned arranged (valid prepared) before
    once := by
      intro before
      cases before with
      | true => exact owned.inputs.once
      | false => exact owned.outputs.once
    whole := nested.whole }

/-- Whatever records a journal holds, when it is accepted recovery may rely on
all of this. -/
theorem parseJournal_sound {T : Type} (crates : Crates T) (host : Host) (weather : Weather)
    (root : FsRoot) (entries : List Entry) (options : WorktreeOptions) :
    Reads host weather (parseJournal crates root entries options)
      fun parsed => parsed.Sound crates (entries.tail.map Entry.record) := by
  unfold parseJournal
  refine Task.Yields.bind (Replay.liftWorktree_reads fun _ _ => trivial) fun header _ => ?_
  refine Task.Yields.bind ((Replay.applyRecords_replays
    (Replay.new_replays root options header) _).and (Replay.applyRecords_checks
      (Replay.new_replays root options header) (Replay.new_checks root options header) _))
    fun replay holds => ?_
  exact Replay.liftWorktree_reads fun parsed => Replay.finish_sound holds.1 holds.2

end Worktree
