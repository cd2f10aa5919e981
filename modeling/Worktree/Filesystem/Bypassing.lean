import Worktree.Filesystem.Sparing
/-
Programs that only read, and programs that leave one file alone.

The first change nothing whatever they find. The second are given a file with
one name and never name it for a change or write to it, so that the file is
there as it was at each point of a run, whatever fails.
-/

namespace Worktree

open CrashLogic

/-- Only quiet calls, and a value that is good. -/
abbrev Reads (host : Host) (weather : Weather) {ε α : Type} (program : ExceptT ε (Task FsOp) α)
    (good : α → Prop) : Prop :=
  Task.Yields (fsMachine host weather) (fun _ => False) (fun _ => True) program good

/-- Leaves the file under the slot alone, and a value that is good. -/
abbrev Bypasses (host : Host) (weather : Weather) (slot : Slot) (seen : Seen) {ε α : Type}
    (program : ExceptT ε (Task FsOp) α) (good : α → Prop) : Prop :=
  Task.Yields (fsMachine host weather) (Spares host slot seen.ino)
    (fun world => world.look slot = some seen) program good

section

variable {host : Host} {weather : Weather} {slot : Slot} {seen : Seen} {α β ε ε' τ : Type}
  {allowed : {ρ : Type} → FsOp ρ → Prop} {known : World → Prop}

theorem Reads.yields {program : ExceptT ε (Task FsOp) α} {good : α → Prop}
    (reads : Reads host weather program good) :
    Task.Yields (fsMachine host weather) allowed known program good :=
  Task.Yields.allowed_mono reads (fun _ => False.elim) (fun _ _ => trivial)

theorem Reads.any {program : ExceptT ε (Task FsOp) α} {good : α → Prop}
    (reads : Reads host weather program good) : Reads host weather program fun _ => True :=
  Task.Yields.mono reads fun _ _ => trivial

theorem yields_quiet {call : FsCall τ} (quiet : (fsMachine host weather).Quiet (.io call)) :
    Task.Yields (fsMachine host weather) allowed known (perform call) fun _ => True :=
  ⟨.inl quiet, fun _ _ _ _ _ _ _ => trivial⟩

theorem yields_call {call : FsCall τ} (allows : allowed (.io call)) :
    Task.Yields (fsMachine host weather) allowed known (perform call) fun _ => True :=
  ⟨.inr allows, fun _ _ _ _ _ _ _ => trivial⟩

/-- A value a call ends with is the one it answers when it does not fail. -/
theorem yields_answer {call : FsCall τ} {good : τ → Prop}
    (spares : (fsMachine host weather).Quiet (.io call) ∨ allowed (.io call))
    (answer : ∀ world value, known world → (call.exec host world).1 = .ok value → good value) :
    Task.Yields (fsMachine host weather) allowed known (perform call) good := by
  refine ⟨spares, fun start result finish knows stepped value same => ?_⟩
  subst same
  rcases stepped with executed | ⟨_, error, impossible, _⟩
  · apply answer start value knows
    rw [executed]
  · cases impossible

theorem yields_liftExcept {result : Except IoError α} :
    Task.Yields (fsMachine host weather) allowed known (liftExcept result)
      fun value => result = .ok value :=
  Task.yields_result result fun _ => id

theorem yields_attempt {program : Io α} {good : α → Prop}
    (yields : Task.Yields (fsMachine host weather) allowed known program good) :
    Task.Yields (fsMachine host weather) allowed known (attempt program)
      fun result => ∀ value, result = .ok value → good value :=
  Task.yields_lift yields

/-- A call that finds what it is about ends with its value or another error than
that nothing was there. -/
theorem yields_attempt_found {call : FsCall τ} (value : τ)
    (quiet : (fsMachine host weather).Quiet (.io call)) (reading : ¬ call.isRemoval)
    (answer : ∀ world, known world →
      call.present host world ∧ (call.exec host world).1 = .ok value) :
    Task.Yields (fsMachine host weather) allowed known (attempt (perform call))
      fun result => (∀ found, result = .ok found → found = value) ∧
        ∀ error, result = .error error → error.kind ≠ .notFound := by
  refine Task.yields_lift ⟨.inl quiet, fun start result finish knows stepped => ?_⟩
  obtain ⟨present, executes⟩ := answer start knows
  have same := (quiet start).2 result finish stepped
  subst same
  rcases stepped with executed | ⟨_, error, rfl, _, missing⟩
  · have answered := congrArg Prod.fst executed
    rw [executes] at answered
    have came : result = .ok value := answered.symm
    subst came
    refine ⟨fun found same => ?_, fun error impossible => ?_⟩
    · cases same
      rfl
    · cases impossible
  · refine ⟨fun found impossible => ?_, fun other same unknown => ?_⟩
    · cases impossible
    · cases same
      rcases missing unknown with absent | ⟨_, removal⟩
      · exact absent present
      · exact reading removal

theorem yields_ite {condition : Prop} [Decidable condition] {first second : ExceptT ε (Task FsOp) α}
    {good : α → Prop}
    (yes : condition → Task.Yields (fsMachine host weather) allowed known first good)
    (no : ¬ condition → Task.Yields (fsMachine host weather) allowed known second good) :
    Task.Yields (fsMachine host weather) allowed known (if condition then first else second)
      good := by
  by_cases holds : condition
  · rw [if_pos holds]
    exact yes holds
  · rw [if_neg holds]
    exact no holds

theorem Reads.meets {guard : {ρ : Type} → FsOp ρ → World → Prop} {start : World}
    {program : ExceptT ε (Task FsOp) α} {good : α → Prop}
    (reads : Reads host weather program good)
    (admits : (fsMachine host weather).Admits guard start) :
    program.run.Meets (fsMachine host weather) guard
      (fun result finish => finish = start ∧ ∀ value, result = .ok value → good value) start := by
  have still : (fsMachine host weather).Maintains (fun _ => False) (fun here => here = start) :=
    ⟨fun _ _ _ _ => False.elim, fun _ _ _ => False.elim⟩
  refine Task.Upholds.meets (Task.Upholds.allowed_mono reads (fun _ => id) fun _ _ => trivial)
    still rfl ?_ fun _ _ => False.elim
  rintro here rfl
  exact admits

/-- A check that ends the program when it finds something. -/
theorem yields_check {condition : Prop} [Decidable condition] {error : ε}
    {next : PUnit → ExceptT ε (Task FsOp) α} {good : α → Prop}
    (passed : ¬ condition → Task.Yields (fsMachine host weather) allowed known (next ⟨⟩) good) :
    Task.Yields (fsMachine host weather) allowed known
      (if condition then throw error >>= next else next ⟨⟩) good :=
  yields_ite (fun _ => Task.yields_throw error) passed

end

/-! ### Readers of one path -/

namespace TargetAccess

variable {host : Host} {weather : Weather} {access : TargetAccess}

theorem openFile_reads : Reads host weather access.openFile fun _ => True := by
  unfold openFile
  refine Task.Yields.bind (yields_quiet (quiet_symlinkMetadata _ _)) fun metadata _ => ?_
  refine yields_check fun _ => ?_
  refine Task.Yields.bind yields_liftExcept fun _ _ => ?_
  refine Task.Yields.bind (yields_quiet (quiet_openRead _ _)) fun file _ => ?_
  refine Task.Yields.bind (yields_quiet (quiet_metadata _)) fun opened _ => ?_
  refine Task.Yields.bind yields_liftExcept fun _ _ => ?_
  exact yields_check fun _ => Task.yields_pure _ trivial

theorem snapshot_reads (maxBytes : Nat) : Reads host weather (access.snapshot maxBytes)
    fun snapshot => snapshot.source.length ≤ maxBytes := by
  unfold snapshot
  refine Task.Yields.bind openFile_reads fun file _ => ?_
  refine Task.Yields.bind (yields_quiet (quiet_metadata _)) fun metadata _ => ?_
  refine Task.Yields.bind yields_liftExcept fun _ _ => ?_
  refine Task.Yields.bind yields_liftExcept fun limit _ => ?_
  refine Task.Yields.bind (yields_quiet (quiet_read _ _)) fun source _ => ?_
  exact yields_check fun short => Task.yields_pure _ (Nat.le_of_not_lt short)

theorem probe_reads : Reads host weather access.probe fun _ => True := by
  unfold probe
  refine Task.Yields.bind openFile_reads fun file _ => ?_
  refine Task.Yields.bind (yields_quiet (quiet_metadata _)) fun metadata _ => ?_
  refine Task.Yields.bind yields_liftExcept fun _ _ => ?_
  exact Task.yields_pure _ trivial

theorem probeSlot_reads : Reads host weather access.probeSlot fun _ => True := by
  unfold probeSlot
  refine Task.Yields.bind (yields_attempt (yields_quiet (quiet_symlinkMetadata _ _)))
    fun result _ => ?_
  cases result with
  | error error =>
      exact yields_ite (fun _ => Task.yields_pure _ trivial) fun _ => Task.yields_throw _
  | ok metadata =>
      refine yields_check fun _ => ?_
      refine Task.Yields.bind yields_liftExcept fun _ _ => ?_
      exact Task.yields_pure _ trivial

theorem snapshotSlot_reads (maxBytes : Nat) : Reads host weather (access.snapshotSlot maxBytes)
    fun slot => ∀ snapshot, slot = .present snapshot → snapshot.source.length ≤ maxBytes := by
  unfold snapshotSlot
  refine Task.Yields.bind probeSlot_reads fun found _ => ?_
  cases found with
  | absent =>
      refine Task.yields_pure _ fun snapshot same => ?_
      cases same
  | present probe =>
      refine Task.Yields.bind (snapshot_reads maxBytes) fun snapshot short => ?_
      refine Task.yields_pure _ fun found same => ?_
      cases same
      exact short

theorem slotEvidence_reads (sha256 : Bytes → Sha256Hash) (maxBytes : Nat) :
    Reads host weather (access.slotEvidence sha256 maxBytes)
      fun slot => ∀ evidence, slot = .present evidence → evidence.bytes ≤ maxBytes := by
  unfold slotEvidence
  refine Task.Yields.bind (snapshotSlot_reads maxBytes) fun found bounded => ?_
  cases found with
  | absent =>
      refine Task.yields_pure _ fun evidence same => ?_
      cases same
  | present snapshot =>
      refine Task.yields_pure _ fun evidence same => ?_
      cases same
      exact bounded snapshot rfl

theorem verifySlot_reads (sha256 : Bytes → Sha256Hash) (expected : SlotEvidence)
    (maxBytes : Nat) : Reads host weather (access.verifySlot sha256 expected maxBytes)
      fun _ => True := by
  unfold verifySlot
  refine Task.Yields.bind (slotEvidence_reads sha256 maxBytes) fun actual _ => ?_
  exact yields_ite (fun _ => Task.yields_pure _ trivial) fun _ => Task.yields_throw _

theorem requireAbsent_reads : Reads host weather access.requireAbsent fun _ => True := by
  unfold requireAbsent
  refine Task.Yields.bind probeSlot_reads fun found _ => ?_
  cases found with
  | absent => exact Task.yields_pure _ trivial
  | present probe => exact Task.yields_throw _

theorem verifyParentHandle_reads : Reads host weather access.verifyParentHandle
    fun _ => True := by
  unfold verifyParentHandle
  refine Task.Yields.bind (yields_quiet (quiet_dirMetadata _)) fun metadata _ => ?_
  refine yields_check fun _ => ?_
  exact yields_check fun _ => Task.yields_pure _ trivial

theorem syncParent_reads : Reads host weather access.syncParent fun _ => True :=
  yields_quiet (quiet_syncDir _)

theorem openArtifact_reads (name : String) : Reads host weather (access.openArtifact name)
    fun _ => validateArtifactName name = .ok () := by
  unfold openArtifact
  refine Task.Yields.bind yields_liftExcept fun _ valid => ?_
  exact Task.Yields.mono (yields_quiet (quiet_openRead _ _)) fun _ _ => valid

theorem readArtifact_reads (name : String) (maxBytes : Nat) :
    Reads host weather (access.readArtifact name maxBytes) fun bytes =>
      validateArtifactName name = .ok () ∧ bytes.length ≤ maxBytes := by
  unfold readArtifact
  refine Task.Yields.bind (openArtifact_reads name) fun file valid => ?_
  refine Task.Yields.bind (yields_quiet (quiet_metadata _)) fun metadata _ => ?_
  refine yields_check fun _ => ?_
  refine Task.Yields.bind yields_liftExcept fun limit _ => ?_
  refine Task.Yields.bind (yields_quiet (quiet_read _ _)) fun bytes _ => ?_
  exact yields_check fun short => Task.yields_pure _ ⟨valid, Nat.le_of_not_lt short⟩

theorem safeArtifactIdentity_reads (name : String) (links : Nat) :
    Reads host weather (access.safeArtifactIdentity name links)
      fun _ => validateArtifactName name = .ok () := by
  unfold safeArtifactIdentity
  refine Task.Yields.bind yields_liftExcept fun _ valid => ?_
  refine Task.Yields.bind (yields_quiet (quiet_symlinkMetadata _ _)) fun metadata _ => ?_
  exact yields_check fun _ => Task.yields_pure _ valid

theorem artifactEvidence_reads (sha256 : Bytes → Sha256Hash) (name : String) (maxBytes : Nat) :
    Reads host weather (access.artifactEvidence sha256 name maxBytes)
      fun evidence => validateArtifactName name = .ok () ∧ evidence.bytes ≤ maxBytes := by
  unfold artifactEvidence
  refine Task.Yields.bind (readArtifact_reads name maxBytes) fun bytes known => ?_
  refine Task.Yields.bind (safeArtifactIdentity_reads name 1) fun identity _ => ?_
  refine Task.Yields.bind (yields_quiet (quiet_symlinkMetadata _ _)) fun metadata _ => ?_
  exact Task.yields_pure _ known

theorem sameFileAsArtifact_reads (name : String) :
    Reads host weather (access.sameFileAsArtifact name)
      fun _ => validateArtifactName name = .ok () := by
  unfold sameFileAsArtifact
  refine Task.Yields.bind yields_liftExcept fun _ valid => ?_
  refine Task.Yields.bind (yields_quiet (quiet_symlinkMetadata _ _)) fun target _ => ?_
  refine Task.Yields.bind (yields_quiet (quiet_symlinkMetadata _ _)) fun staged _ => ?_
  refine yields_check fun _ => ?_
  exact yields_check fun _ => Task.yields_pure _ valid

theorem linkedArtifactEvidence_reads (sha256 : Bytes → Sha256Hash) (name : String)
    (maxBytes : Nat) : Reads host weather (access.linkedArtifactEvidence sha256 name maxBytes)
      fun _ => True := by
  unfold linkedArtifactEvidence
  refine Task.Yields.bind (sameFileAsArtifact_reads name) fun same _ => ?_
  refine yields_check fun _ => ?_
  refine Task.Yields.bind (openArtifact_reads name) fun file _ => ?_
  refine Task.Yields.bind (yields_quiet (quiet_metadata _)) fun metadata _ => ?_
  refine yields_check fun _ => ?_
  refine Task.Yields.bind yields_liftExcept fun limit _ => ?_
  refine Task.Yields.bind (yields_quiet (quiet_read _ _)) fun bytes _ => ?_
  refine yields_check fun _ => ?_
  refine Task.Yields.bind (yields_quiet (quiet_metadata _)) fun final _ => ?_
  refine yields_check fun _ => ?_
  refine Task.Yields.bind (sameFileAsArtifact_reads name) fun again _ => ?_
  exact yields_check fun _ => Task.yields_pure _ trivial

end TargetAccess

/-! ### Resolving a path -/

section

variable {host : Host} {weather : Weather} {T : Type} {crates : Crates T}

theorem reservedRootIdentity_reads (root : FsRoot) (name : String) :
    Reads host weather (reservedRootIdentity root name) fun _ => True := by
  unfold reservedRootIdentity
  refine Task.Yields.bind (yields_attempt (yields_quiet (quiet_symlinkMetadata _ _)))
    fun result _ => ?_
  cases result with
  | ok metadata => exact Task.yields_pure _ trivial
  | error error =>
      exact yields_ite (fun _ => Task.yields_pure _ trivial) fun _ => Task.yields_throw _

theorem reservedRootIdentities_reads (root : FsRoot) :
    Reads host weather (reservedRootIdentities root) fun _ => True := by
  unfold reservedRootIdentities
  refine Task.Yields.bind (reservedRootIdentity_reads root ".git") fun git _ => ?_
  refine Task.Yields.bind (reservedRootIdentity_reads root ".weavatrix") fun own _ => ?_
  exact Task.yields_pure _ trivial

theorem openSegment_reads (parent : Ino) (segment : String) :
    Reads host weather (openSegment parent segment) fun _ => True := by
  unfold openSegment
  refine Task.Yields.bind (yields_attempt (yields_quiet (quiet_openDir _ _))) fun result _ => ?_
  cases result with
  | ok dir => exact Task.yields_pure _ trivial
  | error openError =>
      refine Task.Yields.bind (yields_attempt (yields_quiet (quiet_symlinkMetadata _ _)))
        fun result _ => ?_
      cases result with
      | ok metadata => exact Task.yields_throw _
      | error error => exact Task.yields_throw _

theorem enterSegment_reads (rootDevice : Nat) (reserved : List (Option FileIdentity))
    (parent : Ino) (segment : String) :
    Reads host weather (enterSegment rootDevice reserved parent segment) fun _ => True := by
  unfold enterSegment
  refine Task.Yields.bind (yields_quiet (quiet_symlinkMetadata _ _)) fun metadata _ => ?_
  refine yields_check fun _ => ?_
  refine Task.Yields.bind (openSegment_reads parent segment) fun parent _ => ?_
  refine Task.Yields.bind (yields_quiet (quiet_dirMetadata _)) fun metadata _ => ?_
  refine yields_check fun _ => ?_
  refine yields_check fun _ => ?_
  refine Task.Yields.bind yields_liftExcept fun _ _ => ?_
  exact Task.yields_pure _ trivial

theorem descend_reads (rootDevice : Nat) (reserved : List (Option FileIdentity)) (parent : Ino)
    (segments : List String) :
    Reads host weather (descend rootDevice reserved parent segments) fun _ => True := by
  induction segments using List.twoStepInduction generalizing parent with
  | nil => exact Task.yields_pure _ trivial
  | singleton name => exact Task.yields_pure _ trivial
  | cons_cons segment next rest _ ih =>
      unfold descend
      refine Task.Yields.bind (enterSegment_reads rootDevice reserved parent segment)
        fun parent _ => ?_
      exact ih next parent

/-- The path of an access that was opened is the one asked for. -/
theorem openTarget_reads (root : FsRoot) (path : String) :
    Reads host weather (root.openTarget crates path) fun access =>
      access.path = path ∧ access.rootDevice = root.device ∧
        crates.validatePlanPath path 4096 = .ok () := by
  unfold FsRoot.openTarget TargetAccess.open
  refine Task.Yields.bind yields_liftExcept fun _ valid => ?_
  refine yields_check fun _ => ?_
  refine Task.Yields.bind (reservedRootIdentities_reads root) fun reserved _ => ?_
  refine Task.Yields.bind (yields_quiet (quiet_cloneHandle _)) fun _ _ => ?_
  refine Task.Yields.bind (descend_reads _ _ _ _) fun found _ => ?_
  obtain ⟨parent, name⟩ := found
  refine Task.Yields.bind (yields_quiet (quiet_dirMetadata _)) fun metadata _ => ?_
  refine yields_check fun _ => ?_
  refine Task.Yields.bind yields_liftExcept fun name _ => ?_
  have plan : crates.validatePlanPath path 4096 = .ok () := by
    cases checked : crates.validatePlanPath path 4096 with
    | ok value => rfl
    | error error =>
        rw [checked] at valid
        cases valid
  refine Task.Yields.bind (yields_attempt (yields_quiet (quiet_symlinkMetadata _ _)))
    fun result _ => ?_
  cases result with
  | ok metadata =>
      refine Task.Yields.bind yields_liftExcept fun _ _ => ?_
      exact Task.yields_pure _ ⟨rfl, rfl, plan⟩
  | error error =>
      exact yields_ite (fun _ => Task.yields_pure _ ⟨rfl, rfl, plan⟩)
        fun _ => Task.yields_throw _

theorem revalidateParent_reads (root : FsRoot) (target : TargetAccess) :
    Reads host weather (root.revalidateParent crates target) fun _ => True := by
  unfold FsRoot.revalidateParent
  refine Task.Yields.bind TargetAccess.verifyParentHandle_reads fun _ _ => ?_
  refine Task.Yields.bind (openTarget_reads root target.path) fun reopened _ => ?_
  refine Task.Yields.bind TargetAccess.verifyParentHandle_reads fun _ _ => ?_
  exact yields_ite (fun _ => Task.yields_throw _) fun _ => Task.yields_pure _ trivial

end

/-! ### Leaving a file alone -/

/-- A file of one name that is neither an artifact's nor a receipt's. -/
structure Reserved (slot : Slot) (seen : Seen) : Prop where
  single : seen.links = 1
  name : hasPrefix slot.name artifactPrefix = false
  receipt : hasPrefix slot.name undoPrefix = false

section

variable {host : Host} {weather : Weather} {slot : Slot} {seen : Seen} {dir : Ino} {name : String}

theorem hasPrefix_of_artifact (valid : validateArtifactName name = .ok ()) :
    hasPrefix name artifactPrefix = true := by
  unfold validateArtifactName at valid
  split at valid
  · cases valid
  · next passed =>
      simp only [Bool.or_eq_true, decide_eq_true_eq, Bool.not_eq_true', not_or,
        Bool.not_eq_false] at passed
      exact passed.2

theorem slot_of_own (own : ownName name = true) : host.slot dir name = ⟨dir, name⟩ :=
  congrArg (Slot.mk dir) (host.foldOwn dir name own)

theorem Reserved.artifact_ne (reserved : Reserved slot seen)
    (valid : validateArtifactName name = .ok ()) : host.slot dir name ≠ slot := by
  rintro rfl
  have starts : hasPrefix (host.slot dir name).name artifactPrefix = true :=
    host.foldArtifact dir name (hasPrefix_of_artifact valid)
  rw [reserved.name] at starts
  cases starts

/-- A file that was just made is another one. -/
theorem bypasses_createNew (dir : Ino) (name : String) :
    Bypasses host weather slot seen (perform (.openFile dir name .createNew))
      fun file => file ≠ seen.ino := by
  refine yields_answer (.inr trivial) fun world file shows made => ?_
  simp only [FsCall.exec, FsCall.execOpen] at made
  split at made
  · cases made
  · cases made
    exact (World.fresh_unseen shows).symm

theorem bypasses_removeFile (apart : host.slot dir name ≠ slot) :
    Bypasses host weather slot seen (perform (.removeFile dir name)) fun _ => True :=
  yields_call apart

end

namespace TargetAccess

variable {host : Host} {weather : Weather} {slot : Slot} {seen : Seen} {access : TargetAccess}
  {name : String}

/-- What the evidence says when the slot is the one that is known. -/
theorem slotEvidence_bypasses (sha256 : Bytes → Sha256Hash) (maxBytes : Nat) :
    Bypasses host weather slot seen (access.slotEvidence sha256 maxBytes) fun evidence =>
      access.slot host = slot → ∃ found, evidence = .present found ∧
        found.identity = seen.identity := by
  by_cases same : access.slot host = slot
  · have sees : ∀ world, (fun world : World => world.look slot = some seen) world →
        world.look (access.slot host) = some seen := by
      intro world shows
      rw [same]
      exact shows
    refine (slotEvidence_learns sha256 maxBytes sees).upholds.mono
      fun result answered value found => ?_
    subst found
    intro _
    cases value with
    | absent => cases answered
    | present evidence =>
        obtain ⟨there, shown, _, rfl⟩ := answered
        cases shown
        exact ⟨_, rfl, rfl⟩
  · exact Task.Yields.mono (slotEvidence_reads sha256 maxBytes).yields
      fun _ _ impossible => absurd impossible same

theorem verifySlot_bypasses (sha256 : Bytes → Sha256Hash) (expected : SlotEvidence)
    (maxBytes : Nat) :
    Bypasses host weather slot seen (access.verifySlot sha256 expected maxBytes) fun _ =>
      access.slot host = slot → ∃ found, expected = .present found ∧
        found.identity = seen.identity := by
  unfold verifySlot
  refine Task.Yields.bind (slotEvidence_bypasses sha256 maxBytes) fun actual facts => ?_
  refine yields_ite (fun same => ?_) fun _ => Task.yields_throw _
  subst same
  exact Task.yields_pure _ facts

theorem sameFileAsArtifact_bypasses (reserved : Reserved slot seen) :
    Bypasses host weather slot seen (access.sameFileAsArtifact name) fun linked =>
      validateArtifactName name = .ok () ∧ (linked = true → access.slot host ≠ slot) := by
  unfold sameFileAsArtifact
  refine Task.Yields.bind yields_liftExcept fun _ valid => ?_
  have answers : Bypasses host weather slot seen
      (perform (.symlinkMetadata access.parent access.name)) fun metadata =>
        access.slot host = slot → metadata = seen.metadata := by
    refine yields_answer (.inr trivial) fun world metadata shows answered same => ?_
    simp only [FsCall.exec] at answered
    rw [show host.slot access.parent access.name = slot from same, shows] at answered
    cases answered
    rfl
  refine Task.Yields.bind answers fun target facts => ?_
  refine Task.Yields.bind (yields_quiet (quiet_symlinkMetadata _ _)) fun staged _ => ?_
  refine yields_check fun _ => ?_
  refine yields_check fun _ => ?_
  refine Task.yields_pure _ ⟨valid, fun linked same => ?_⟩
  have links := reserved.single
  rw [facts same] at linked
  simp only [Bool.and_eq_true, decide_eq_true_eq] at linked
  have double : seen.links = 2 := linked.1.2
  omega

theorem createNew_bypasses : Bypasses host weather slot seen (access.createNew name)
    fun file => file ≠ seen.ino := by
  unfold createNew
  exact Task.Yields.bind yields_liftExcept fun _ _ => bypasses_createNew _ _

theorem removeArtifact_bypasses (reserved : Reserved slot seen) :
    Bypasses host weather slot seen (access.removeArtifact name) fun _ => True := by
  unfold removeArtifact
  refine Task.Yields.bind yields_liftExcept fun _ valid => ?_
  refine Task.Yields.bind (yields_attempt (yields_quiet (quiet_symlinkMetadata _ _)))
    fun result _ => ?_
  cases result with
  | error error =>
      exact yields_ite (fun _ => Task.yields_pure _ trivial) fun _ => Task.yields_throw _
  | ok metadata =>
      refine yields_check fun _ => ?_
      refine Task.Yields.bind (bypasses_removeFile (reserved.artifact_ne valid)) fun _ _ => ?_
      refine Task.Yields.bind syncParent_reads.yields fun _ _ => ?_
      exact Task.yields_pure _ trivial

theorem linkAbsentFrom_bypasses (reserved : Reserved slot seen) :
    Bypasses host weather slot seen (access.linkAbsentFrom name) fun _ => True := by
  unfold linkAbsentFrom
  refine Task.Yields.bind yields_liftExcept fun _ valid => ?_
  refine Task.Yields.bind requireAbsent_reads.yields fun _ _ => ?_
  refine Task.Yields.bind (safeArtifactIdentity_reads name 1).yields fun identity _ => ?_
  have spares : Spares host slot seen.ino
      (.io (.hardLink access.parent name access.parent access.name)) :=
    reserved.artifact_ne valid
  refine Task.Yields.bind (yields_call spares) fun _ _ => ?_
  refine Task.Yields.bind syncParent_reads.yields fun _ _ => ?_
  refine Task.Yields.bind (sameFileAsArtifact_reads name).yields fun linked _ => ?_
  exact yields_ite (fun _ => Task.yields_throw _) fun _ => Task.yields_pure _ trivial

theorem finishLinkedInstall_bypasses (reserved : Reserved slot seen)
    (expectedIdentity : FileIdentity) :
    Bypasses host weather slot seen (access.finishLinkedInstall name expectedIdentity)
      fun _ => True := by
  unfold finishLinkedInstall
  refine Task.Yields.bind (sameFileAsArtifact_reads name).yields fun linked valid => ?_
  refine yields_check fun _ => ?_
  refine Task.Yields.bind (bypasses_removeFile (reserved.artifact_ne valid)) fun _ _ => ?_
  refine Task.Yields.bind syncParent_reads.yields fun _ _ => ?_
  refine Task.Yields.bind probe_reads.yields fun probe _ => ?_
  exact yields_ite (fun _ => Task.yields_throw _) fun _ => Task.yields_pure _ trivial

theorem installAbsentFrom_bypasses (reserved : Reserved slot seen) :
    Bypasses host weather slot seen (access.installAbsentFrom name) fun _ => True := by
  unfold installAbsentFrom
  exact Task.Yields.bind (linkAbsentFrom_bypasses reserved) fun identity _ =>
    finishLinkedInstall_bypasses reserved identity

/-- The name that goes belongs to a file of two names, so it is not the known one. -/
theorem rollbackLinkedInstall_bypasses (reserved : Reserved slot seen) :
    Bypasses host weather slot seen (access.rollbackLinkedInstall name) fun _ => True := by
  unfold rollbackLinkedInstall
  refine Task.Yields.bind (sameFileAsArtifact_bypasses reserved) fun linked facts => ?_
  refine yields_check fun passed => ?_
  have double : linked = true := by simpa using passed
  refine Task.Yields.bind (bypasses_removeFile (facts.2 double)) fun _ _ => ?_
  refine Task.Yields.bind syncParent_reads.yields fun _ _ => ?_
  refine Task.Yields.bind requireAbsent_reads.yields fun _ _ => ?_
  refine Task.Yields.bind (safeArtifactIdentity_reads name 1).yields fun _ _ => ?_
  exact Task.yields_pure _ trivial

theorem replaceFrom_bypasses (reserved : Reserved slot seen) (apart : access.slot host ≠ slot) :
    Bypasses host weather slot seen (access.replaceFrom name) fun _ => True := by
  unfold replaceFrom
  refine Task.Yields.bind (safeArtifactIdentity_reads name 1).yields fun _ valid => ?_
  unfold renameFrom
  refine Task.Yields.bind yields_liftExcept fun _ _ => ?_
  exact yields_call ⟨reserved.artifact_ne valid, apart⟩

theorem removeExact_bypasses (sha256 : Bytes → Sha256Hash) (expected : PresentEvidence)
    (maxBytes : Nat) (apart : expected.identity ≠ seen.identity ∨ access.slot host ≠ slot) :
    Bypasses host weather slot seen (access.removeExact sha256 expected maxBytes)
      fun _ => True := by
  unfold removeExact
  refine Task.Yields.bind (verifySlot_bypasses sha256 _ maxBytes) fun _ facts => ?_
  have other : access.slot host ≠ slot := by
    rcases apart with foreign | other
    · intro same
      obtain ⟨found, shown, identical⟩ := facts same
      cases shown
      exact foreign identical
    · exact other
  refine Task.Yields.bind (bypasses_removeFile other) fun _ _ => ?_
  refine Task.Yields.bind syncParent_reads.yields fun _ _ => ?_
  exact requireAbsent_reads.yields

end TargetAccess

end Worktree
