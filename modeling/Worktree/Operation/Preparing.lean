import Worktree.Operation.Aliasing
import Worktree.Operation.Lasting
/-
The journal while a plan is prepared.

Until the journal is created there is none, and whatever happens then, its records are
those a preparation appends one after the other, or the preparation was given up. None
of the artifacts is the journal, so the workers and the journal never meet.
-/

namespace Worktree

open CrashLogic

/-! ### A name that is not there -/

/-- The call puts no entry in this place. -/
def FsCall.Avoids (host : Host) (slot : Slot) : {τ : Type} → FsCall τ → Prop
  | _, .createDir dir name => host.slot dir name ≠ slot
  | _, .openFile dir name .create => host.slot dir name ≠ slot
  | _, .openFile dir name .createNew => host.slot dir name ≠ slot
  | _, .rename _ _ toDir toName => host.slot toDir toName ≠ slot
  | _, .hardLink _ _ toDir toName => host.slot toDir toName ≠ slot
  | _, _ => True

def Avoids (host : Host) (slot : Slot) : {ρ : Type} → FsOp ρ → Prop
  | _, .io call => call.Avoids host slot
  | _, .unlock _ => True
  | _, .refuseAppend => True

section

variable {host : Host} {weather : Weather} {slot : Slot} {τ : Type}

theorem World.absent_effect {world left : World} {call : FsCall τ}
    (absent : world.look slot = none) (avoids : call.Avoids host slot)
    (effect : call.Effect host world left) : left.look slot = none := by
  rw [World.look_eq_none_iff] at absent ⊢
  cases effect with
  | none => exact absent
  | createNew dir name inode => exact (AList.lookup_insert_ne (Ne.symm avoids)).trans absent
  | create dir name inode => exact (AList.lookup_insert_ne (Ne.symm avoids)).trans absent
  | createDir dir name inode => exact (AList.lookup_insert_ne (Ne.symm avoids)).trans absent
  | write file bytes count => exact absent
  | setPermissions file mode => exact absent
  | setLength file length => exact absent
  | rename dir name toDir toName moved found file covered =>
      refine (AList.lookup_insert_ne (Ne.symm avoids)).trans ?_
      by_cases same : slot = host.slot dir name
      · subst same
        exact AList.lookup_erase _ world.table
      · exact (AList.lookup_erase_ne same).trans absent
  | hardLink dir name toDir toName linked =>
      exact (AList.lookup_insert_ne (Ne.symm avoids)).trans absent
  | removeFile dir name found =>
      by_cases same : slot = host.slot dir name
      · subst same
        exact AList.lookup_erase _ world.table
      · exact (AList.lookup_erase_ne same).trans absent
  | tryLock file => exact absent
  | random count => exact absent

theorem avoids_maintains (host : Host) (weather : Weather) (slot : Slot) :
    (fsMachine host weather).Maintains (Avoids host slot)
      (fun world => world.look slot = none) := by
  constructor
  · intro ρ op start answer finish avoids absent stepped
    cases op with
    | io call => exact World.absent_effect absent avoids (FsCall.step_effect stepped)
    | unlock file =>
        cases stepped
        exact absent
    | refuseAppend =>
        obtain ⟨_, rfl⟩ := stepped
        exact absent
  · intro ρ op start left avoids absent torn
    cases op with
    | io call => exact World.absent_effect absent avoids (FsCall.torn_effect torn)
    | unlock file => exact torn.elim
    | refuseAppend =>
        cases torn
        exact absent

end

/-! ### Artifacts are not the journal -/

namespace TargetAccess

variable {host : Host} {weather : Weather} {slot : Slot} {seen : Seen} {access : TargetAccess}

theorem safeArtifactIdentity_bypasses (reserved : Reserved slot seen) (name : String)
    (links : Nat) :
    Bypasses host weather slot seen (access.safeArtifactIdentity name links)
      fun identity => identity.inode ≠ seen.ino := by
  unfold safeArtifactIdentity
  refine Task.Yields.bind yields_liftExcept fun _ valid => ?_
  have answers : Bypasses host weather slot seen (perform (.symlinkMetadata access.parent name))
      fun metadata => metadata.inode ≠ seen.ino := by
    apply yields_answer (.inl (quiet_symlinkMetadata _ _))
    intro world metadata shows answered same
    simp only [FsCall.exec] at answered
    cases found : world.look (host.slot access.parent name) with
    | none =>
        rw [found] at answered
        cases answered
    | some there =>
        rw [found] at answered
        cases answered
        apply reserved.artifact_ne valid
        exact World.only_name shows reserved.single found same
  refine Task.Yields.bind answers fun metadata other => ?_
  exact yields_check fun _ => Task.yields_pure _ other

theorem artifactEvidence_bypasses (reserved : Reserved slot seen) (sha256 : Bytes → Sha256Hash)
    (name : String) (maxBytes : Nat) :
    Bypasses host weather slot seen (access.artifactEvidence sha256 name maxBytes)
      fun evidence => evidence.identity.inode ≠ seen.ino := by
  unfold artifactEvidence
  refine Task.Yields.bind (readArtifact_reads name maxBytes).yields fun bytes _ => ?_
  refine Task.Yields.bind (safeArtifactIdentity_bypasses reserved name 1) fun identity other => ?_
  refine Task.Yields.bind (yields_quiet (quiet_symlinkMetadata _ _)) fun metadata _ => ?_
  exact Task.yields_pure _ other

end TargetAccess

section

variable {T : Type} {crates : Crates T} {host : Host} {weather : Weather} {slot : Slot}
  {seen : Seen} {options : WorktreeOptions} {job : StageJob T}

theorem finishArtifact_bypasses (reserved : Reserved slot seen) (access : TargetAccess)
    (name : String) {file : Ino} (other : file ≠ seen.ino) (permissions : PortablePermissions)
    (maxBytes : Nat) (expected : Sha256Hash) (path : String) (index : Nat) :
    Bypasses host weather slot seen
      (finishArtifact crates access name file permissions maxBytes expected path index)
      fun evidence => evidence.identity.inode ≠ seen.ino := by
  unfold finishArtifact
  refine Task.Yields.bind (Task.yields_adapt (Task.Yields.bind
    (yields_quiet (quiet_metadata file)) fun metadata _ => Task.Yields.bind
      (yields_call other) fun _ _ => yields_quiet (quiet_syncFile file))) fun _ _ => ?_
  refine Task.Yields.bind (Task.yields_adapt (TargetAccess.artifactEvidence_bypasses reserved
    crates.sha256 name maxBytes)) fun evidence foreign => ?_
  exact yields_check fun _ => Task.yields_pure _ foreign

theorem writeArtifact_bypasses (reserved : Reserved slot seen) (access : TargetAccess)
    (name : String) (bytes : Bytes) (permissions : PortablePermissions) (maxBytes : Nat)
    (expected : Sha256Hash) (path : String) (index : Nat) :
    Bypasses host weather slot seen
      (writeArtifact crates access name bytes permissions maxBytes expected path index)
      fun evidence => evidence.identity.inode ≠ seen.ino := by
  unfold writeArtifact
  refine Task.Yields.bind (Task.yields_adapt TargetAccess.createNew_bypasses) fun file other => ?_
  refine Task.Yields.bind (Task.yields_adapt (yields_call other)) fun _ _ => ?_
  exact finishArtifact_bypasses reserved access name other permissions maxBytes expected path index

theorem writeRecipe_bypasses {file : Ino} (other : file ≠ seen.ino) (recipe : OutputRecipe T)
    (path : String) (index : Nat) :
    Bypasses host weather slot seen (writeRecipe crates options file recipe path index)
      fun _ => True := by
  unfold writeRecipe
  cases recipe with
  | exact source => exact Task.yields_adapt (yields_call other)
  | edited source edits =>
      dsimp only
      cases crates.prepareEdits (applyLimits options) source edits with
      | error error => exact Task.yields_throw _
      | ok prepared =>
          apply Task.yields_adapt
          exact Task.yields_forM fun chunk _ => yields_call other

theorem writeOutput_bypasses (reserved : Reserved slot seen) (access : TargetAccess)
    (name : String) (present : ProjectedPresent T) (path : String) (index : Nat) :
    Bypasses host weather slot seen (writeOutput crates access name present options path index)
      fun evidence => evidence.identity.inode ≠ seen.ino := by
  unfold writeOutput
  refine Task.Yields.bind (Task.yields_adapt TargetAccess.createNew_bypasses) fun file other => ?_
  refine Task.Yields.bind (writeRecipe_bypasses other present.recipe path index) fun _ _ => ?_
  exact finishArtifact_bypasses reserved access name other _ _ _ _ _

theorem stageBackup_bypasses (reserved : Reserved slot seen) :
    Bypasses host weather slot seen (stageBackup crates options job) fun _ => True := by
  unfold stageBackup
  split
  · exact Task.Yields.bind (writeArtifact_bypasses reserved _ _ _ _ _ _ _ _) fun _ _ =>
      Task.yields_pure _ trivial
  · exact Task.yields_pure _ trivial
  · exact Task.yields_throw _

theorem stageOutput_bypasses (reserved : Reserved slot seen) :
    Bypasses host weather slot seen (stageOutput crates options job) fun made =>
      ∀ evidence, made = some evidence → evidence.identity.inode ≠ seen.ino := by
  unfold stageOutput
  split
  · refine Task.Yields.bind (writeOutput_bypasses reserved _ _ _ _ _) fun made foreign => ?_
    refine Task.yields_pure _ fun evidence same => ?_
    cases same
    exact foreign
  · exact Task.yields_pure _ nofun
  · exact Task.yields_throw _

theorem stageArtifacts_bypasses (reserved : Reserved slot seen) :
    Bypasses host weather slot seen (stageArtifacts crates options job) fun made =>
      ∀ evidence, made.2.2 = some evidence → evidence.identity.inode ≠ seen.ino := by
  unfold stageArtifacts
  refine Task.Yields.bind (stageBackup_bypasses reserved) fun backup _ => ?_
  refine Task.Yields.bind (stageOutput_bypasses reserved) fun stage foreign => ?_
  refine Task.Yields.bind (Task.yields_adapt TargetAccess.syncParent_reads.yields) fun _ _ => ?_
  exact Task.yields_pure _ foreign

theorem discardArtifact_bypasses (reserved : Reserved slot seen) (artifact : String) :
    Bypasses host weather slot seen (discardArtifact job artifact) fun _ => True := by
  unfold discardArtifact
  refine Task.Yields.bind (Task.yields_lift (TargetAccess.removeArtifact_bypasses reserved))
    fun result _ => ?_
  cases result with
  | ok removed => exact Task.yields_pure _ trivial
  | error error => exact Task.yields_throw _

/-- What a job stages is another file than the journal. -/
theorem stageOne_bypasses (reserved : Reserved slot seen) :
    Bypasses host weather slot seen (stageOne crates options job) fun staged =>
      ∀ evidence, staged.after = .present evidence → evidence.identity.inode ≠ seen.ino := by
  unfold stageOne
  refine Task.Yields.bind (Task.yields_lift (stageArtifacts_bypasses reserved))
    fun result told => ?_
  rcases result with primary | ⟨before, backup, stage⟩
  · refine Task.Yields.bind (Task.yields_forM fun artifact _ =>
      discardArtifact_bypasses reserved artifact) fun _ _ => ?_
    exact Task.yields_throw _
  · refine Task.yields_pure _ fun evidence same => ?_
    cases stage with
    | none => cases same
    | some made =>
        cases same
        exact told _ rfl _ rfl

end

/-! ### The records of a preparation -/

def OperationChange.record (operation : OperationChange) (index : Nat) : Record :=
  .operation index operation.kind.asStr operation.sourcePath operation.destinationPath
    (operation.oldSha256.map Sha256Hash.display) (operation.newSha256.map Sha256Hash.display)
    operation.bytesBefore operation.bytesAfter operation.editsApplied

theorem operationRecord_ok {index : Nat} {operation : OperationChange} {record : Record}
    (recorded : operationRecord index operation = .ok record) :
    record = operation.record index := by
  unfold operationRecord at recorded
  obtain ⟨place, placed, recorded⟩ := bind_ok_iff.mp recorded
  obtain ⟨edits, counted, same⟩ := bind_ok_iff.mp recorded
  have placed := toU32_eq (fromOption_ok_iff.mp placed)
  have counted := toU32_eq (fromOption_ok_iff.mp counted)
  subst placed counted
  cases same
  rfl

/-- Only records that a preparation appends, none of which names the journal as staged. -/
structure Underway (file : Ino) (records : List Record) : Prop where
  prepares : ∀ record ∈ records, record.prepares = true
  foreign : ∀ index identity backup, .pathStaged index (some identity) backup ∈ records →
    identity.inode ≠ file

/-- The header is there. -/
structure Headed (file : Ino) (records : List Record) : Prop extends Underway file records where
  headed : records ≠ []

/-- The record may follow those of a preparation. -/
structure Prepared (file : Ino) (record : Record) : Prop where
  body : record.isHeader = false
  prepares : record.prepares = true
  foreign : ∀ index identity backup, record = .pathStaged index (some identity) backup →
    identity.inode ≠ file

/-- The records of a preparation, or of one that was given up. -/
def Preparing (file : Ino) (records : List Record) : Prop :=
  ∃ base, Underway file base ∧ (records = base ∨ base ≠ [] ∧ records = base ++ [.finished .aborted])

section

variable {file : Ino} {records : List Record} {record : Record}

theorem Underway.nil (file : Ino) : Underway file [] :=
  ⟨nofun, nofun⟩

theorem Underway.snoc (underway : Underway file records) (prepares : record.prepares = true)
    (foreign : ∀ index identity backup, record = .pathStaged index (some identity) backup →
      identity.inode ≠ file) : Underway file (records ++ [record]) := by
  constructor
  · intro other among
    rcases List.mem_append.mp among with earlier | last
    · exact underway.prepares other earlier
    · cases List.mem_singleton.mp last
      exact prepares
  · intro index identity backup among
    rcases List.mem_append.mp among with earlier | last
    · exact underway.foreign index identity backup earlier
    · exact foreign index identity backup (List.mem_singleton.mp last).symm

theorem Headed.snoc (headed : Headed file records) (prepared : Prepared file record) :
    Headed file (records ++ [record]) :=
  ⟨headed.toUnderway.snoc prepared.prepares prepared.foreign, by simp⟩

theorem Headed.append {more : List Record} (headed : Headed file records)
    (prepared : ∀ record ∈ more, Prepared file record) : Headed file (records ++ more) := by
  induction more generalizing records with
  | nil =>
      rw [List.append_nil]
      exact headed
  | cons record rest ih =>
      have next := ih (headed.snoc (prepared record List.mem_cons_self)) fun other among =>
        prepared other (List.mem_cons_of_mem _ among)
      rwa [List.append_assoc] at next

theorem Underway.preparing (underway : Underway file records) : Preparing file records :=
  ⟨records, underway, .inl rfl⟩

theorem prepared_operation (operation : OperationChange) (index : Nat) :
    Prepared file (operation.record index) :=
  ⟨rfl, rfl, nofun⟩

theorem prepared_pathIntent {T : Type} (job : StageJob T) : Prepared file (pathIntent job) :=
  ⟨rfl, rfl, nofun⟩

theorem prepared_pathStaged {path : StagedPath}
    (foreign : ∀ evidence, path.after = .present evidence → evidence.identity.inode ≠ file) :
    Prepared file (pathStaged path) := by
  refine ⟨rfl, rfl, fun index identity backup same => ?_⟩
  unfold pathStaged at same
  cases after : path.after with
  | absent =>
      rw [after] at same
      cases same
  | present evidence =>
      rw [after] at same
      cases same
      exact foreign evidence after

end

section

variable {T : Type} {file : Ino} {records : List Record}

def declaring (projected : ProjectedPlan T) : List Record :=
  projected.operations.zipIdx.map fun item => item.1.record item.2

def announcing (id : String) (projected : ProjectedPlan T) : List Record :=
  (projected.paths.map (stageJob id)).map pathIntent

/-- The staged path stands for the projected one, and is not the journal. -/
structure Stages (file : Ino) (id : String) (path : ProjectedPath T) (staged : StagedPath) : Prop
    where
  stands : Stands id path staged
  foreign : ∀ evidence, staged.after = .present evidence → evidence.identity.inode ≠ file

theorem Headed.declaring (headed : Headed file records) (projected : ProjectedPlan T) :
    Headed file (records ++ declaring projected) := by
  apply headed.append
  intro record among
  obtain ⟨item, _, rfl⟩ := List.mem_map.mp among
  exact prepared_operation item.1 item.2

theorem Headed.announcing (headed : Headed file records) (id : String)
    (projected : ProjectedPlan T) : Headed file (records ++ announcing id projected) := by
  apply headed.append
  intro record among
  obtain ⟨job, _, rfl⟩ := List.mem_map.mp among
  exact prepared_pathIntent job

theorem Headed.staged {id : String} {projected : ProjectedPlan T} {staged : List StagedPath}
    (headed : Headed file records)
    (stages : List.Forall₂ (Stages file id) projected.paths staged) :
    Headed file (records ++ staged.map pathStaged) := by
  apply headed.append
  intro record among
  obtain ⟨path, listed, rfl⟩ := List.mem_map.mp among
  obtain ⟨place, bound, rfl⟩ := List.getElem_of_mem listed
  exact prepared_pathStaged (stages.get (stages.length_eq ▸ bound) bound).foreign

end

section

variable {T : Type}

/-- What staging everything hands on. -/
structure Gathered (file : Ino) (id : String) (projected : ProjectedPlan T) (base : List Record)
    (found : String × List OperationChange × List StagedPath) (records : List Record) : Prop where
  operation : found.1 = projected.operation
  operations : found.2.1 = projected.operations
  records : records = base ++ declaring projected ++ announcing id projected ++
    found.2.2.map pathStaged
  stages : List.Forall₂ (Stages file id) projected.paths found.2.2

/-- The records of a plan that was prepared. -/
def preparedRecords (plan : WorktreePlan T) (hash : Sha256Hash) (id : String)
    (projected : ProjectedPlan T) (staged : List StagedPath) : List Record :=
  [.header id hash.display plan.operation plan.operations.length projected.paths.length] ++
    declaring projected ++ announcing id projected ++ staged.map pathStaged ++
    [.prepared projected.operations.length staged.length]

/-- What a preparation hands on, and what its journal then holds. -/
structure Complete (file : Ino) (plan : WorktreePlan T) (hash : Sha256Hash) (id : String)
    (projected : ProjectedPlan T) (found : String × List OperationChange × List StagedPath)
    (records : List Record) : Prop where
  operation : found.1 = projected.operation
  operations : found.2.1 = projected.operations
  records : records = preparedRecords plan hash id projected found.2.2
  stages : List.Forall₂ (Stages file id) projected.paths found.2.2

theorem Complete.headed {plan : WorktreePlan T} {hash : Sha256Hash} {id : String}
    {projected : ProjectedPlan T} {found : String × List OperationChange × List StagedPath}
    {file : Ino} {records : List Record}
    (complete : Complete file plan hash id projected found records) : Headed file records := by
  rw [complete.records]
  refine Headed.snoc (Headed.staged ?_ complete.stages)
    ⟨rfl, rfl, fun _ _ _ other => by cases other⟩
  refine Headed.announcing (Headed.declaring ?_ projected) id projected
  exact ⟨(Underway.nil file).snoc rfl (fun _ _ _ other => by cases other), List.cons_ne_nil _ _⟩

section

variable (plan : WorktreePlan T) (hash : Sha256Hash) (id : String) (projected : ProjectedPlan T)
  (staged : List StagedPath)

theorem preparedRecords_completes :
    (preparedRecords plan hash id projected staged).any Record.completes = true := by
  unfold preparedRecords
  rw [List.any_append]
  exact Bool.or_true _

theorem preparedRecords_announces :
    (preparedRecords plan hash id projected staged).countP Record.announces =
      projected.paths.length := by
  have declared : (declaring projected).countP Record.announces = 0 := by
    rw [List.countP_eq_zero]
    intro record among
    obtain ⟨item, _, rfl⟩ := List.mem_map.mp among
    exact Bool.false_ne_true
  have announced : (announcing id projected).countP Record.announces = projected.paths.length := by
    unfold announcing
    rw [List.map_map, List.countP_map]
    exact List.countP_eq_length.mpr fun _ _ => rfl
  have completed : (staged.map pathStaged).countP Record.announces = 0 := by
    rw [List.countP_eq_zero]
    intro record among
    obtain ⟨path, _, rfl⟩ := List.mem_map.mp among
    exact Bool.false_ne_true
  unfold preparedRecords
  simp only [List.countP_append, declared, announced, completed]
  simp [Record.announces]

end

end

/-! ### Filling the journal -/

namespace Logbook

variable {T : Type} {crates : Crates T} {book : Logbook crates} {host : Host} {weather : Weather}
  {options : WorktreeOptions} {base : List Record} {pre post : List Record → Prop}

/-- The journal may be filled by a preparation. -/
def Fills (book : Logbook crates) : Prop :=
  ∀ records, Preparing book.file records → book.safe records

theorem append_fills (fills : book.Fills) (record : Record) (wrap : JournalError → WorktreeError)
    (step : ∀ records, pre records → Headed book.file records ∧ Prepared book.file record ∧
      post (records ++ [record])) :
    book.Logs (fsMachine host weather) (book.Cautious host weather True)
      (appendOr crates record wrap).run pre
      fun result records => match result with
        | .ok _ => post records
        | .error _ => Headed book.file records := by
  refine appendOr_logs record wrap fun records _ holds => ?_
  obtain ⟨headed, prepared, after⟩ := step records holds
  refine ⟨?_, fills _ (headed.snoc prepared).toUnderway.preparing, after,
    .inr ⟨trivial, fun _ _ => headed⟩⟩
  constructor
  · intro header
    rw [prepared.body] at header
    cases header
  · intro empty
    exact absurd empty headed.headed

theorem appendHeader_logs (fills : book.Fills) (plan : WorktreePlan T) (hash : Sha256Hash)
    (id : String) (count : Nat) :
    book.Logs (fsMachine host weather) (book.Cautious host weather True)
      (appendHeader crates plan hash id count).run (fun records => records = [])
      fun result records => match result with
        | .ok _ => records =
            [.header id hash.display plan.operation plan.operations.length count]
        | .error _ => Underway book.file records := by
  unfold appendHeader
  cases operations : toU32 plan.operations.length with
  | none =>
      refine (logs_throw _).post ?_
      rintro _ records _ ⟨rfl, rfl⟩
      exact Underway.nil _
  | some operationCount =>
      cases paths : toU32 count with
      | none =>
          refine (logs_throw _).post ?_
          rintro _ records _ ⟨rfl, rfl⟩
          exact Underway.nil _
      | some pathCount =>
          have operations := toU32_eq operations
          have paths := toU32_eq paths
          subst operations paths
          refine appendOr_logs _ _ fun records _ empty => ?_
          subst empty
          refine ⟨⟨fun _ => rfl, fun _ => rfl⟩, ?_, rfl, .inr ⟨trivial, fun _ _ => .nil _⟩⟩
          refine fills _ ((Underway.nil _).snoc rfl fun _ _ _ other => ?_).preparing
          cases other

theorem appendOperations_logs (fills : book.Fills) (index : Nat) (operations : List OperationChange)
    (headed : Headed book.file base) :
    book.Logs (fsMachine host weather) (book.Cautious host weather True)
      (appendOperations crates index operations).run (fun records => records = base)
      fun result records => match result with
        | .ok _ => records = base ++
            (operations.zipIdx index).map fun item => item.1.record item.2
        | .error _ => Headed book.file records := by
  induction operations generalizing index base with
  | nil =>
      intro writer world session
      apply session.mono
      rintro records _ rfl
      exact (List.append_nil records).symm
  | cons operation rest ih =>
      unfold appendOperations
      cases recorded : operationRecord index operation with
      | error error =>
          intro writer world session
          apply session.mono
          rintro records _ rfl
          exact headed
      | ok record =>
          have same := operationRecord_ok recorded
          subst same
          have prepared : Prepared book.file (operation.record index) :=
            prepared_operation operation index
          change book.Logs _ _ (appendOr crates (operation.record index) _ >>= fun _ =>
            appendOperations crates (index + 1) rest).run _ _
          have first : book.Logs (fsMachine host weather) (book.Cautious host weather True)
              (appendOr crates (operation.record index)
                (stageJournalError "failed to record logical operation")).run
              (fun records => records = base)
              fun result records => match result with
                | .ok _ => records = base ++ [operation.record index]
                | .error _ => Headed book.file records := by
            apply append_fills fills
            rintro records rfl
            exact ⟨headed, prepared, rfl⟩
          refine Logs.except_bind first (fun _ => ?_) fun _ _ _ => id
          apply (ih (index + 1) (headed.snoc prepared)).post
          intro result records _ ended
          cases result with
          | error error => exact ended
          | ok value =>
              rw [List.append_assoc] at ended
              exact ended

/-- One record for each of the items, as long as none is refused. -/
theorem appendEach_logs {ι : Type} (fills : book.Fills) (items : List ι) (record : ι → Record)
    (wrap : JournalError → WorktreeError) {known : Prop}
    (prepared : known → ∀ item ∈ items, Prepared book.file (record item))
    (headed : Headed book.file base) :
    book.Logs (fsMachine host weather) (book.Cautious host weather True)
      (items.forM fun item => appendOr crates (record item) wrap).run
      (fun records => records = base ∧ known)
      fun result records => match result with
        | .ok _ => records = base ++ items.map record ∧ known
        | .error _ => Headed book.file records := by
  have loop : book.Logs (fsMachine host weather) (book.Cautious host weather True)
      (items.forM fun item => appendOr crates (record item) wrap).run
      (fun records => records = base ++ (items.map record).take 0 ∧ known)
      fun result records => match result with
        | .ok _ => records = base ++ (items.map record).take items.length ∧ known
        | .error _ => Headed book.file records := by
    refine (logs_forM (fun count records => records = base ++ (items.map record).take count ∧ known)
      (Headed book.file) fun past item rest split => ?_).post fun result _ _ ended => by
        cases result <;> exact ended
    refine (append_fills fills (record item) wrap fun records holds => ?_).post
      fun result _ _ ended => by cases result <;> exact ended
    obtain ⟨rfl, knows⟩ := holds
    have here : item ∈ items := by
      rw [split]
      exact List.mem_append_right _ List.mem_cons_self
    refine ⟨headed.append fun other among => ?_, prepared knows item here, ?_, knows⟩
    · obtain ⟨found, listed, rfl⟩ := List.mem_map.mp (List.mem_of_mem_take among)
      exact prepared knows found listed
    · have place : (items.map record)[past.length]? = some (record item) := by
        rw [split, List.map_append, List.getElem?_append_right (by simp)]
        simp
      rw [List.take_add_one, place, List.append_assoc]
      rfl
  rw [← List.length_map record, List.take_length] at loop
  apply loop.mono
  · rintro records _ ⟨rfl, knows⟩
    exact ⟨by simp, knows⟩
  · exact fun _ _ _ => id

/-! ### Among the workers -/

/-- At the call and inside it the journal is safe. -/
abbrev Outlasts (book : Logbook crates) (host : Host) (weather : Weather) {ρ : Type}
    (op : Phase FsOp ρ) (here : World) : Prop :=
  (fsMachine host weather).phased.Survives book.Recorded op here

section

variable {α ι ε ρ : Type}

theorem Logs.planning {program : Journaled α} {post : Except WorktreeError α → List Record → Prop}
    (logs : book.Logs (fsMachine host weather) (book.Cautious host weather True) program.run pre
      post) :
    book.Logs (fsMachine host weather).phased (book.Outlasts host weather) program.planning.run pre
      post := by
  intro writer world session
  refine (Task.meets_phase _ _ _ _ _).mpr ?_
  exact (logs writer world session).guard_mono fun _ _ => Cautious.survives

theorem Closes.planning {program : Journaled α}
    (closes : book.Closes (fsMachine host weather) (book.Cautious host weather True) program.run
      pre) :
    book.Closes (fsMachine host weather).phased (book.Outlasts host weather) program.planning.run
      pre := by
  intro writer world session
  refine (Task.meets_phase _ _ _ _ _).mpr ?_
  exact (closes writer world session).guard_mono fun _ _ => Cautious.survives

/-- Workers that keep away from the journal leave the session as it is. -/
theorem mapUnwinding_logs {items : List ι} {operation : Nat → ι → Task FsOp (JobEnd ε ρ)}
    {good : ι → ρ → Prop} (requestedWorkers : Nat)
    (upholds : ∀ seen, seen.ino = book.file → Reserved book.slot seen →
      ∀ index item, items[index]? = some item →
        (catchUnwind <$> operation index item).Upholds (fsMachine host weather)
          (Spares host book.slot seen.ino) (fun world => world.look book.slot = some seen)
          fun result => result ≠ .error .cancelled ∧
            ∀ value, result = .ok value → good item value) :
    book.Logs (fsMachine host weather).phased (book.Outlasts host weather)
      (StateT.lift (mapUnwinding items requestedWorkers operation)) pre
      fun results records => pre records ∧ List.Forall₂ (Delivers good) items results ∧
        (.error .cancelled ∈ results → ∃ error, error ≠ .cancelled ∧ .error error ∈ results) := by
  intro writer world session
  obtain ⟨seen, shows, reserved, ino⟩ := session.look
  have kept : ∀ here : World, here.look book.slot = some seen → book.Session pre writer here :=
    fun here same => session.congr (same.trans shows.symm)
  rw [StateT.run_lift, Task.meets_bind]
  refine (mapUnwinding_upholds requestedWorkers
    (spares_maintains host weather book.slot seen reserved.single) (upholds seen ino reserved)
    shows ?_).mono fun results finish ended => ?_
  · exact fun op torn => ⟨session.recorded, fun left came => (kept left (torn left came)).recorded⟩
  · obtain ⟨same, told⟩ := ended
    exact (kept finish same).mono fun records _ holds => ⟨holds, told⟩

end

theorem stageOne_stages {slot : Slot} {seen : Seen} (reserved : Reserved slot seen) (id : String)
    (path : ProjectedPath T) :
    Bypasses host weather slot seen (stageOne crates options (stageJob id path))
      (Stages seen.ino id path) :=
  ((stageOne_bypasses reserved).alongside (stageOne_gains id path)).mono
    fun _ both => ⟨both.2, both.1⟩

theorem appendIntents_logs (fills : book.Fills) (id : String) (projected : ProjectedPlan T)
    (headed : Headed book.file base) :
    book.Logs (fsMachine host weather) (book.Cautious host weather True)
      (appendIntents crates (projected.paths.map (stageJob id))).run (fun records => records = base)
      fun result records => match result with
        | .ok _ => records = base ++ announcing id projected
        | .error _ => Headed book.file records := by
  apply (appendEach_logs fills _ _ _ (fun _ job _ => prepared_pathIntent job) headed).mono
  · exact fun records _ same => ⟨same, trivial⟩
  · intro result records _ ended
    cases result with
    | ok value => exact ended.1
    | error error => exact ended

theorem stageJobs_logs (panics : Nat → Option (Nat × Payload)) (projected : ProjectedPlan T)
    (id : String) (requestedWorkers : Nat) :
    book.Logs (fsMachine host weather).phased (book.Outlasts host weather)
      (StateT.lift (mapUnwinding (projected.paths.map (stageJob id)) requestedWorkers
        fun index job => unwinding (panics index) (stageOne crates options job))) pre
      fun results records => pre records ∧
        List.Forall₂ (Delivers fun (job : StageJob T) => Stages book.file id job.path)
          (projected.paths.map (stageJob id)) results ∧
        (.error .cancelled ∈ results → ∃ error, error ≠ .cancelled ∧ .error error ∈ results) := by
  apply mapUnwinding_logs
  intro seen ino reserved index job found
  rw [List.getElem?_map] at found
  obtain ⟨path, _, rfl⟩ := Option.map_eq_some_iff.mp found
  rw [← ino]
  exact unwinding_upholds (stageOne_stages reserved id path)

theorem collectStaged_logs (projected : ProjectedPlan T) (id : String)
    (results : List (Except (ScheduleError WorktreeError) StagedPath))
    (headed : Headed book.file base) :
    book.Logs (fsMachine host weather) (book.Cautious host weather True)
      (beside (collectStaged results)).run
      (fun records => records = base ∧
        List.Forall₂ (Delivers fun (job : StageJob T) => Stages book.file id job.path)
          (projected.paths.map (stageJob id)) results ∧
        (.error .cancelled ∈ results → ∃ error, error ≠ .cancelled ∧ .error error ∈ results))
      fun result records => match result with
        | .ok staged => records = base ∧ List.Forall₂ (Stages book.file id) projected.paths staged
        | .error _ => Headed book.file records := by
  unfold collectStaged
  cases sorted : sortResults 0 results with
  | mk paths failed =>
      cases failed with
      | some error =>
          have raised : book.Skirts host weather
              (cleanup paths >>= fun _ => (throw error : Action (List StagedPath)))
              fun _ => False := by
            apply Skirts.bind (cleanup_skirts paths)
            exact fun _ _ => skirts_throw error
          apply (beside_logs raised).post
          rintro result records _ ⟨⟨same, _⟩, none⟩
          cases result with
          | ok value => exact (none value rfl).elim
          | error error =>
              rw [same]
              exact headed
      | none =>
          intro writer world session
          apply session.mono
          rintro records _ ⟨same, delivered, complete⟩
          refine ⟨same, ?_⟩
          rw [sortResults_sound sorted complete, List.forall₂_map_right_iff,
            List.forall₂_map_left_iff] at delivered
          exact delivered.imp fun _ _ delivers => delivers _ rfl

theorem appendStaged_logs (fills : book.Fills) (projected : ProjectedPlan T) (id : String)
    (staged : List StagedPath) (headed : Headed book.file base) :
    book.Logs (fsMachine host weather) (book.Cautious host weather True)
      (appendStaged crates staged).run
      (fun records => records = base ∧ List.Forall₂ (Stages book.file id) projected.paths staged)
      fun result records => match result with
        | .ok _ => records = base ++ staged.map pathStaged ∧
            List.Forall₂ (Stages book.file id) projected.paths staged
        | .error _ => Headed book.file records := by
  apply appendEach_logs fills staged pathStaged _ _ headed
  intro stages path among
  obtain ⟨place, bound, rfl⟩ := List.getElem_of_mem among
  exact prepared_pathStaged (stages.get (stages.length_eq ▸ bound) bound).foreign

theorem stageAll_logs (fills : book.Fills) (panics : Nat → Option (Nat × Payload))
    (projected : ProjectedPlan T) (id : String) (headed : Headed book.file base) :
    book.Logs (fsMachine host weather).phased (book.Outlasts host weather)
      (stageAll crates panics projected id options).run (fun records => records = base)
      fun result records => match result with
        | .ok found => Gathered book.file id projected base found records
        | .error _ => Headed book.file records := by
  have declared := headed.declaring projected
  have announced := declared.announcing id projected
  unfold stageAll
  refine Logs.except_bind (Logs.planning (appendOperations_logs fills 0 projected.operations headed))
    (fun _ => ?_) fun _ _ _ ended => ended
  refine Logs.except_bind (Logs.planning (appendIntents_logs fills id projected declared))
    (fun _ => ?_) fun _ _ _ ended => ended
  refine Logs.except_bind (logs_attempt (stageJobs_logs panics projected id _))
    (fun results => ?_) (fun error records _ ended => ?_)
  · refine Logs.except_bind ((collectStaged_logs projected id results announced).planning.mono
      (fun records _ holds => ?_) fun _ _ _ ended => ended) (fun staged => ?_)
      fun _ _ _ ended => ended
    · obtain ⟨value, same, holds⟩ := holds
      cases same
      exact holds
    · refine Logs.except_bind (Logs.planning (appendStaged_logs fills projected id staged announced))
        (fun _ => ?_) fun _ _ _ ended => ended
      apply (logs_pure _).post
      rintro _ records _ ⟨rfl, same, stages⟩
      exact ⟨rfl, rfl, same, stages⟩
  · obtain ⟨value, impossible, _⟩ := ended
    cases impossible

/-- A preparation that is given up leaves its records and the last of them, or nothing. -/
theorem finishFailedPrepare_closes (fills : book.Fills) (control : ControlDir) :
    book.Closes (fsMachine host weather) (book.Cautious host weather True)
      (finishFailedPrepare crates control).run (Headed book.file) := by
  have logged : book.Logs (fsMachine host weather) (book.Cautious host weather True)
      (appendOr crates (.finished .aborted) fun error => (operationJournalError .cleanup
        "failed to record aborted operation preparation" error).requiringRecovery).run
      (Headed book.file) fun _ _ => True := by
    apply appendOr_logs
    intro records _ headed
    refine ⟨?_, ?_, trivial, .inr ⟨trivial, fun _ _ => trivial⟩⟩
    · constructor
      · intro header
        cases header
      · intro empty
        exact absurd empty headed.headed
    · exact fills _ ⟨records, headed.toUnderway, .inr ⟨headed.headed, rfl⟩⟩
  exact Closes.except_after logged fun _ => removeOperationJournal_closes _ _

theorem stageOrAbort_opens (fills : book.Fills) (panics : Nat → Option (Nat × Payload))
    (control : ControlDir) (projected : ProjectedPlan T) (id : String)
    (headed : Headed book.file base) :
    book.Opens (fsMachine host weather).phased (book.Outlasts host weather)
      (stageOrAbort crates panics control projected id options) (fun records => records = base)
      (Gathered book.file id projected base) := by
  unfold stageOrAbort
  refine Opens.after (logs_attempt (stageAll_logs fills panics projected id headed))
    fun result => ?_
  cases result with
  | ok found =>
      apply opens_pure
      rintro records _ ⟨value, same, ended⟩
      cases same
      exact ended
  | error error =>
      dsimp only
      apply opens_ite
      · intro _
        exact opens_throw _
      · intro _
        apply Closes.opens
        apply (finishFailedPrepare_closes fills control).planning.mono
        rintro records _ ⟨value, same, ended⟩
        cases same
        exact ended

theorem appendPrepared_logs (fills : book.Fills) (plan : WorktreePlan T) (hash : Sha256Hash)
    (id : String) (projected : ProjectedPlan T)
    (found : String × List OperationChange × List StagedPath)
    (header : base =
      [.header id hash.display plan.operation plan.operations.length projected.paths.length]) :
    book.Logs (fsMachine host weather) (book.Cautious host weather True)
      (appendPrepared crates found.2.1.length found.2.2.length).run
      (Gathered book.file id projected base found)
      fun result records => match result with
        | .ok _ => Complete book.file plan hash id projected found records
        | .error _ => True := by
  unfold appendPrepared
  cases operations : toU32 found.2.1.length with
  | none => exact (logs_throw _).post fun result _ _ ended => by rw [ended.1]; trivial
  | some operationCount =>
      cases paths : toU32 found.2.2.length with
      | none => exact (logs_throw _).post fun result _ _ ended => by rw [ended.1]; trivial
      | some pathCount =>
          have operations := toU32_eq operations
          have paths := toU32_eq paths
          subst operations paths
          refine appendOr_logs _ _ fun records _ gathered => ?_
          have complete : Complete book.file plan hash id projected found
              (records ++ [.prepared found.2.1.length found.2.2.length]) := by
            refine ⟨gathered.operation, gathered.operations, ?_, gathered.stages⟩
            rw [gathered.records, gathered.operations, header]
            rfl
          refine ⟨?_, fills _ complete.headed.toUnderway.preparing, complete,
            .inr ⟨trivial, fun _ _ => trivial⟩⟩
          constructor
          · intro header
            cases header
          · intro empty
            rw [gathered.records, header] at empty
            cases empty

theorem prepareJournaled_opens (fills : book.Fills) (panics : Nat → Option (Nat × Payload))
    (plan : WorktreePlan T) (hash : Sha256Hash) (root : FsRoot) (control : ControlDir)
    (projected : ProjectedPlan T) (id : String) :
    book.Opens (fsMachine host weather).phased (book.Outlasts host weather)
      (prepareJournaled crates panics plan hash root control projected id options)
      (fun records => records = []) (Complete book.file plan hash id projected) := by
  have headed : Headed book.file
      [.header id hash.display plan.operation plan.operations.length projected.paths.length] :=
    ⟨(Underway.nil _).snoc rfl (fun _ _ _ other => by cases other), List.cons_ne_nil _ _⟩
  have retained : book.Skirts host weather (orElse (perform (.cloneHandle root.dir)) fun error =>
      (WorktreeError.withSource .io .prepare "failed to retain the worktree root capability"
        error.message).requiringRecovery) fun _ => True :=
    fun _ _ _ => Task.yields_adapt (yields_quiet (quiet_cloneHandle _))
  unfold prepareJournaled
  refine Opens.after (Logs.planning (appendHeader_logs fills plan hash id _)) fun _ => ?_
  refine Opens.bind (stageOrAbort_opens fills panics control projected id headed) fun found => ?_
  refine Opens.after (Logs.planning (appendPrepared_logs fills plan hash id projected found rfl))
    fun _ => ?_
  refine Opens.after (Logs.planning (beside_logs retained)) fun _ => ?_
  exact opens_pure _ fun _ _ holds => holds.1

end Logbook

/-! ### Values and the writer -/

section

variable {Op : Type → Type 1} {α β ε ε' : Type}

/-- Only a writer that lost nothing comes with a value. -/
def Unspoiled (program : ExceptT ε (StateT Writer (Task Op)) α) : Prop :=
  ∀ writer, (program.run.run writer).Ends fun result =>
    ∀ value, result.1 = .ok value → result.2.poisoned = false

/-- What would follow an error does not matter. -/
theorem unspoiled_throw (error : ε) (next : β → ExceptT ε (StateT Writer (Task Op)) α) :
    Unspoiled ((throw error : ExceptT ε (StateT Writer (Task Op)) β) >>= next) :=
  fun _ _ impossible => by cases impossible

theorem Unspoiled.after {program : ExceptT ε (StateT Writer (Task Op)) α}
    {next : α → ExceptT ε (StateT Writer (Task Op)) β}
    (unspoiled : ∀ value, Unspoiled (next value)) : Unspoiled (program >>= next) := by
  intro writer
  rw [ExceptT.run_bind, StateT.run_bind, Task.ends_bind]
  apply Task.ends_any
  rintro ⟨error | value, after⟩
  · intro value impossible
    cases impossible
  · exact unspoiled value after

/-- A program that follows may leave the writer alone. -/
theorem Unspoiled.then {program : ExceptT ε (StateT Writer (Task Op)) α}
    {next : α → ExceptT ε (StateT Writer (Task Op)) β} (unspoiled : Unspoiled program)
    (alone : ∀ value writer, ((next value).run.run writer).Ends fun result => result.2 = writer) :
    Unspoiled (program >>= next) := by
  intro writer
  rw [ExceptT.run_bind, StateT.run_bind, Task.ends_bind]
  refine (unspoiled writer).mono fun result clean => ?_
  obtain ⟨error | value, after⟩ := result
  · intro value impossible
    cases impossible
  · refine (alone value after).mono fun result same found _ => ?_
    rw [same]
    exact clean value rfl

theorem unspoiled_adapt {change : ε → ε'} {program : ExceptT ε (StateT Writer (Task Op)) α}
    (unspoiled : Unspoiled program) : Unspoiled (ExceptT.adapt change program) := by
  intro writer
  rw [ExceptT.run_adapt, StateT.run_map, Task.ends_map]
  refine (unspoiled writer).mono fun result clean value same => ?_
  obtain ⟨error | found, after⟩ := result
  · cases same
  · exact clean found rfl

end

theorem beside_alone {α : Type} (program : Action α) (writer : Writer) :
    ((beside program).run.run writer).Ends fun result => result.2 = writer := by
  unfold beside
  rw [ExceptT.run_mk, StateT.run_lift, Task.ends_bind]
  exact Task.ends_any fun _ => rfl

theorem Unspoiled.planning {α : Type} {program : Journaled α} (unspoiled : Unspoiled program) :
    Unspoiled program.planning :=
  fun writer => (unspoiled writer).phase

section

variable {T : Type} {crates : Crates T}

theorem appendOr_unspoiled (record : Record) (wrap : JournalError → WorktreeError) :
    Unspoiled (appendOr crates record wrap) := by
  have append : Unspoiled (Writer.append crates record) := by
    unfold Writer.append
    apply Unspoiled.after
    intro writer
    split
    · exact unspoiled_throw _ _
    refine Unspoiled.after fun _ => ?_
    dsimp only
    split
    · exact Unspoiled.after fun _ => unspoiled_throw _ _
    refine Unspoiled.after fun _ => Unspoiled.after fun _ => Unspoiled.after fun _ =>
      Unspoiled.after fun _ => ?_
    split
    · exact fun _ _ impossible => by cases impossible
    · exact fun _ _ _ => rfl
  apply unspoiled_adapt
  refine append.then fun value writer => ?_
  rfl

theorem appendPrepared_unspoiled (operationCount pathCount : Nat) :
    Unspoiled (appendPrepared crates operationCount pathCount) := by
  unfold appendPrepared
  exact Unspoiled.after fun _ => Unspoiled.after fun _ => appendOr_unspoiled _ _

theorem prepareJournaled_unspoiled (options : WorktreeOptions)
    (panics : Nat → Option (Nat × Payload))
    (plan : WorktreePlan T) (hash : Sha256Hash) (root : FsRoot) (control : ControlDir)
    (projected : ProjectedPlan T) (id : String) :
    Unspoiled (prepareJournaled crates panics plan hash root control projected id options) := by
  unfold prepareJournaled
  refine Unspoiled.after fun _ => Unspoiled.after fun found => ?_
  refine (appendPrepared_unspoiled _ _).planning.then fun _ writer => ?_
  rw [ExceptT.run_bind, StateT.run_bind, Task.ends_bind]
  refine (beside_alone _ writer).phase.mono fun result same => ?_
  obtain ⟨error | value, after⟩ := result
  · exact same
  · exact same

end

end Worktree
