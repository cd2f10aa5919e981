import Worktree.Undo.Discarding
/-
A discard after a discard that was cut short, when what made it fail is repaired.

It succeeds just when the first one had removed nothing: a backup that is gone is
looked for again, by every later discard and by the rollback, before anything else
is done.
-/

namespace Worktree

open CrashLogic

namespace Undo

variable {T : Type} {crates : Crates T} {host : Host} {weather : Weather} {root : FsRoot}
  {control : ControlDir} {options : WorktreeOptions} {id : UndoId} {receipt : StoredReceipt}
  {seen : Seen} {start left later world : World}

/-! ### What becomes of a discard -/

/-- A discard that came back with an error, or a crash in the middle of one. -/
inductive CutShort (crates : Crates T) (host : Host) (weather : Weather) (root : FsRoot)
    (options : WorktreeOptions) (id : UndoId) (start : World) : World → Prop
  | failed (error : WorktreeError) (left : World)
      (returned : (undoDiscard crates root options id).run.Returns (fsMachine host weather) start
        (.error error) left) :
      CutShort crates host weather root options id start left
  | crashed (left : World)
      (crashed : (undoDiscard crates root options id).run.Crashes (fsMachine host weather) start
        left) :
      CutShort crates host weather root options id start left.reboot

/-- The backups that are still there are as the receipt records them, and nothing
else was done. -/
structure Repaired (crates : Crates T) (host : Host) (control : ControlDir)
    (options : WorktreeOptions) (receipt : StoredReceipt) (left later : World) : Prop where
  locks : later.locks = left.locks
  others : ∀ slot, ¬ BackupSlots host control receipt.paths slot →
    later.look slot = left.look slot
  gone : ∀ slot, BackupSlots host control receipt.paths slot → left.look slot = none →
    later.look slot = none
  intact : ∀ path ∈ receipt.paths, ∀ name, path.backupName = some name →
    left.look (host.slot control.dir name) ≠ none →
    ∃ seen, later.look (host.slot control.dir name) = some seen ∧ seen.File control.device ∧
      seen.links = 1 ∧ Fits options.limits.maxSourceBytesPerFile seen ∧
      path.backup = some (seen.evidence crates.sha256)

/-- A discard that removes the receipt and its backups, and nothing else. -/
def Discards (crates : Crates T) (host : Host) (root : FsRoot) (control : ControlDir)
    (options : WorktreeOptions) (id : UndoId) (receipt : StoredReceipt) (later : World) : Prop :=
  ∃ count finish, (undoDiscard crates root options id).run.run (fsKernel host) later =
      (.ok count, finish) ∧
    (∀ slot, DiscardSlots host control id receipt.paths slot → finish.look slot = none) ∧
    ∀ slot, ¬ DiscardSlots host control id receipt.paths slot →
      finish.look slot = later.look slot

/-- A discard or a rollback of the receipt succeeds. -/
def Consumable (crates : Crates T) (host : Host) (root : FsRoot) (options : WorktreeOptions)
    (id : UndoId) (later : World) : Prop :=
  (∃ count finish, (undoDiscard crates root options id).run.run (fsKernel host) later =
      (.ok count, finish)) ∨
    ∃ report finish, (undoRollback crates root options id).run.run (fsKernel host) later =
      (.ok report, finish)

/-- Nothing that a discard takes away is gone. -/
def Untouched (host : Host) (control : ControlDir) (id : UndoId) (receipt : StoredReceipt)
    (left : World) : Prop :=
  ∀ slot, DiscardSlots host control id receipt.paths slot → left.look slot ≠ none

/-! ### The state directory after the cut -/

theorem leads_of_look {other : World} {slot : Slot} {ino : Ino} (leads : world.Leads slot ino)
    (same : other.look slot = world.look slot) : other.Leads slot ino := by
  obtain ⟨there, shows, rfl, kind⟩ := leads.look
  rw [← same] at shows
  refine ⟨(World.look_eq_some_iff.mp shows).1, ?_⟩
  rw [inode_of_look shows]
  exact kind

theorem cutShort_lost (ready : Ready host root start control)
    (stored : StoredAs crates host control options start id receipt seen)
    (single : seen.links = 1) (cut : CutShort crates host weather root options id start left) :
    World.Lost (DiscardSlots host control id receipt.paths) start left ∧
      (left.locks = start.locks ∨ left.locks = []) := by
  have meets : (undoDiscard crates root options id).run.Meets (fsMachine host weather) _ _ start :=
    undoDiscard_meets root ready stored single
  cases cut with
  | failed error left returned =>
      obtain ⟨locks, lost⟩ := meets.returns returned
      exact ⟨lost, .inl locks⟩
  | crashed left crashed =>
      have lost : World.Lost (DiscardSlots host control id receipt.paths) start left :=
        meets.crashes (fun _ _ ended => ended.2) crashed
      exact ⟨lost, .inr rfl⟩

/-- Names the program keeps for itself are neither backups nor receipts. -/
theorem StoredAs.spares (stored : StoredAs crates host control options world id receipt seen)
    {dir : Ino} {name : String} (own : ownName name = true)
    (artifact : hasPrefix name artifactPrefix = false) (other : hasPrefix name undoPrefix = false) :
    ¬ DiscardSlots host control id receipt.paths (host.slot dir name) := by
  intro taken
  have begins := stored.discards taken
  rw [slot_of_own own, artifact, other] at begins
  rcases begins with impossible | impossible
  · cases impossible
  · cases impossible

theorem repaired_ready (ready : Ready host root start control)
    (stored : StoredAs crates host control options start id receipt seen)
    (lost : World.Lost (DiscardSlots host control id receipt.paths) start left)
    (locks : left.locks = start.locks ∨ left.locks = [])
    (repaired : Repaired crates host control options receipt left later) :
    Ready host root later control := by
  have same : ∀ slot, ¬ DiscardSlots host control id receipt.paths slot →
      later.look slot = start.look slot := fun slot spared =>
    (repaired.others slot fun taken => spared (.inl taken)).trans (lost.kept spared)
  obtain ⟨device, outer, first, second⟩ := ready.houses
  obtain ⟨lock, shows, file, free⟩ := ready.unlocked
  refine ⟨⟨device, outer, ?_, ?_⟩, ⟨lock, ?_, file, ?_⟩, ?_⟩
  · exact leads_of_look first (same _ (stored.spares (by decide) (by decide) (by decide)))
  · exact leads_of_look second (same _ (stored.spares (by decide) (by decide) (by decide)))
  · rw [same _ (stored.spares (by decide) (by decide) (by decide)), shows]
  · rw [repaired.locks]
    rcases locks with kept | none
    · rw [kept]
      exact free
    · rw [none]
      exact List.not_mem_nil
  · intro name among
    have own : ∀ name ∈ [legacyJournal, operationJournal, legacyOperationJournal, undoJournal],
        ownName name = true ∧ hasPrefix name artifactPrefix = false ∧
          hasPrefix name undoPrefix = false := by decide
    obtain ⟨owned, artifact, other⟩ := own name among
    rw [same _ (stored.spares owned artifact other), ready.idle name among]

/-! ### A later discard -/

theorem inspect_absent (absent : world.look (receiptSlot control id) = none) :
    ∃ error, (inspect crates control id options).run.run (fsKernel host) world =
      (.error error, world) := by
  have opened : (control.openUndoReceipt id.value).run.run (fsKernel host) world =
      (.ok none, world) := by
    unfold ControlDir.openUndoReceipt
    rw [undoName_id]
    rw [← slot_receipt] at absent
    exact ControlDir.openNamedJournal_absent absent
  have read : (readExact crates control id.value options).run.run (fsKernel host) world =
      (.ok none, world) := by
    unfold readExact
    rw [Task.run_except_ok _ (run_orElse _ opened)]
    rfl
  unfold inspect
  exact ⟨_, (Task.run_except_ok _ read).trans rfl⟩

/-- Without its receipt nothing can be discarded. -/
theorem undoDiscard_absent (ready : Ready host root later control)
    (absent : later.look (receiptSlot control id) = none) :
    ∃ error finish, (undoDiscard crates root options id).run.run (fsKernel host) later =
      (.error error, finish) := by
  obtain ⟨lock, free, ran⟩ := openSession_run ready (.error notFound) fun control => do
    let stored ← inspect crates control id options
    discard crates control stored options
  have none : (later.locked (lock :: later.locks)).look (receiptSlot control id) = none := absent
  obtain ⟨error, inspected⟩ : ∃ error, (inspect crates control id options).run.run _ _ =
    (.error error, later.locked (lock :: later.locks)) := inspect_absent none
  rw [Task.run_except_error _ inspected] at ran
  exact ⟨error, _, ran⟩

/-- With its receipt, a discard ends well just when its backups are there. -/
theorem undoDiscard_present (ready : Ready host root later control)
    (stored : StoredAs crates host control options later id receipt seen)
    (single : seen.links = 1) :
    ∃ result finish, (undoDiscard crates root options id).run.run (fsKernel host) later =
        (result, finish) ∧
      World.Lost (DiscardSlots host control id receipt.paths) later finish ∧
      DiscardEnds crates host .calm control options id receipt.paths later result finish := by
  obtain ⟨lock, free, ran⟩ := openSession_run ready (.error notFound) fun control => do
    let stored ← inspect crates control id options
    discard crates control stored options
  have held : StoredAs crates host control options (later.locked (lock :: later.locks)) id
      receipt seen := ⟨stored.shows, stored.file, stored.short, stored.decodes⟩
  have shown := held.shows
  rw [slot_receipt] at shown
  have meets : (discard crates control receipt options).run.Meets (fsMachine host .calm) _ _
      (later.locked (lock :: later.locks)) :=
    discard_meets (decodeReceipt_ok stored.decodes).1 shown stored.file single stored.foreign
  obtain ⟨_, lost, ends⟩ := meets.returns (returns_run trivial _ _)
  rw [Task.run_except_ok _ (inspect_run held)] at ran
  generalize (discard crates control receipt options).run.run (fsKernel host)
    (later.locked (lock :: later.locks)) = final at ran lost ends
  obtain ⟨result, finish⟩ := final
  refine ⟨result, _, ran, lost, ?_⟩
  cases result with
  | ok count => exact ends
  | error error => exact ends

theorem missing_backup {found : Seen} (here : left.look (receiptSlot control id) = some found)
    (touched : ¬ Untouched host control id receipt left) :
    ∃ path ∈ receipt.paths, ∃ name, path.backupName = some name ∧
      left.look (host.slot control.dir name) = none := by
  by_contra none
  refine touched ?_
  rintro slot (⟨path, among, name, named, rfl⟩ | rfl) gone
  · exact none ⟨path, among, name, named, gone⟩
  · rw [here] at gone
    cases gone

/-- Without one of its backups a receipt is not rolled back. -/
theorem undoRollback_missing {path : ReceiptPath} {name : String}
    (ready : Ready host root later control)
    (stored : StoredAs crates host control options later id receipt seen)
    (among : path ∈ receipt.paths) (named : path.backupName = some name)
    (absent : later.look (host.slot control.dir name) = none) :
    ∃ error, (undoRollback crates root options id).run.run (fsKernel host) later =
      (.error error, later) := by
  have differs : ¬ BackupExact crates host control later path := by
    obtain ⟨index, found⟩ := List.mem_iff_getElem?.mp among
    obtain ⟨expected, recorded⟩ :=
      Option.isSome_iff_exists.mp (stored.backup_name found named).2
    intro exact_
    obtain ⟨there, shows, _⟩ := exact_ name expected named recorded
    rw [absent] at shows
    cases shows
  obtain ⟨error, refused, _⟩ := undoRollback_refused ready stored among (.inr differs)
  exact ⟨error, refused⟩

/-- A discard restarts just when nothing it takes away is gone; once a backup is
gone, neither a discard nor a rollback consumes the receipt any more. -/
theorem undoDiscard_restarts (ready : Ready host root start control)
    (stored : StoredAs crates host control options start id receipt seen)
    (single : seen.links = 1) (cut : CutShort crates host weather root options id start left)
    (repaired : Repaired crates host control options receipt left later) :
    ((Discards crates host root control options id receipt later ∧
        (later.look (receiptSlot control id) ≠ none →
          Consumable crates host root options id later)) ↔
      Untouched host control id receipt left) ∧
    (left.look (receiptSlot control id) ≠ none → ¬ Untouched host control id receipt left →
      ¬ Consumable crates host root options id later) := by
  obtain ⟨lost, locks⟩ := cutShort_lost ready stored single cut
  have own : host.slot control.dir (undoPrefix ++ id.value ++ undoSuffix) =
      receiptSlot control id := slot_receipt id
  have readyLater := repaired_ready ready stored lost locks repaired
  have same := repaired.others _ stored.foreign
  cases here : left.look (receiptSlot control id) with
  | none =>
      rw [here] at same
      obtain ⟨error, finish, ran⟩ : ∃ error finish, (undoDiscard crates root options id).run.run
        (fsKernel host) later = (.error error, finish) := undoDiscard_absent readyLater same
      refine ⟨⟨?_, fun untouched => absurd here (untouched _ (.inr rfl))⟩, fun there => ?_⟩
      · rintro ⟨⟨count, finish', ended, _⟩, _⟩
        rw [ran] at ended
        cases ended
      · exact absurd rfl there
  | some found =>
      have shown : later.look (receiptSlot control id) = some seen := by
        rw [same]
        rcases lost (receiptSlot control id) with kept | ⟨_, gone⟩
        · rw [kept, ← own]
          exact stored.shows
        · rw [here] at gone
          cases gone
      have storedLater : StoredAs crates host control options later id receipt seen := by
        rw [← own] at shown
        exact ⟨shown, stored.file, stored.short, stored.decodes⟩
      obtain ⟨result, finish, ran, taken, ends⟩ :=
        undoDiscard_present readyLater storedLater single
      cases result with
      | ok count =>
          have untouched : Untouched host control id receipt left := by
            rintro slot (backup | rfl) gone
            · exact (ends.1 slot backup).1 (repaired.gone slot backup gone)
            · rw [here] at gone
              cases gone
          have discards : Discards crates host root control options id receipt later := by
            refine ⟨count, finish, ran, ?_, fun slot spared => taken.kept spared⟩
            rintro slot (backup | rfl)
            · exact (ends.1 slot backup).2
            · exact ends.2 fun fails => fails
          refine ⟨⟨fun _ => untouched, fun _ => ⟨discards, fun _ => ?_⟩⟩, fun _ touched => ?_⟩
          · exact .inl ⟨count, finish, ran⟩
          · exact absurd untouched touched
      | error error =>
          have touched : ¬ Untouched host control id receipt left := by
            intro untouched
            refine ends stored.apart fun path among name named => ?_
            refine ⟨stored.backup_valid among named, ?_⟩
            exact repaired.intact path among name named
              (untouched _ (.inl ⟨path, among, name, named, rfl⟩))
          have failed : ∀ count finish', (undoDiscard crates root options id).run.run
              (fsKernel host) later ≠ (.ok count, finish') := by
            intro count finish' ended
            rw [ran] at ended
            cases ended
          refine ⟨⟨?_, fun untouched => absurd untouched touched⟩, fun _ _ => ?_⟩
          · rintro ⟨⟨count, finish', ended, _⟩, _⟩
            exact absurd ended (failed count finish')
          · rintro (⟨count, finish', ended⟩ | ⟨report, finish', ended⟩)
            · exact failed count finish' ended
            · obtain ⟨path, among, name, named, gone⟩ := missing_backup here touched
              have absent := repaired.gone _ ⟨path, among, name, named, rfl⟩ gone
              obtain ⟨error, refused⟩ :=
                undoRollback_missing readyLater storedLater among named absent
              rw [refused] at ended
              cases ended

/-! ### A discard cut after its only backup -/

section Cut

def cutId : UndoId := ⟨"00000000000000000000000000000000", zeros_valid⟩

def backedUp : PresentEvidence :=
  { sha256 := Sha256.digest [121]
    bytes := 1
    identity := ⟨0, 5⟩
    permissions := .fromPermissions 0o644 }

/-- What a plan that deleted `a` left behind. -/
def deletedPath : ReceiptPath :=
  { index := 0
    path := "a"
    before := .present backedUp
    after := .absent
    backupName := some (artifactName cutId.value 0 "backup")
    backup := some backedUp }

def deletedBody : ReceiptBody :=
  { schema
    transactionId := cutId.value
    planFingerprint := Sha256.digest []
    beforeFingerprint := snapshot plainCrates [deletedPath] true
    afterFingerprint := snapshot plainCrates [deletedPath] false
    retainedBytes := 1
    paths := [deletedPath] }

def deletedBytes : Bytes :=
  plainCrates.receipt.encode ⟨deletedBody, bodyChecksum plainCrates deletedBody⟩

def deletedReceipt : StoredReceipt :=
  ⟨deletedBody, bodyChecksum plainCrates deletedBody, deletedBytes.length⟩

def deletedWorld : World :=
  .tree [(⟨0, ".weavatrix"⟩, 1), (⟨1, "worktree"⟩, 2), (⟨2, "lock"⟩, 3),
      (⟨2, undoPrefix ++ cutId.value ++ undoSuffix⟩, 4),
      (⟨2, artifactName cutId.value 0 "backup"⟩, 5)]
    fun ino =>
      if ino ≤ 2 then ⟨.directory, 0, [], 0o755⟩
      else if ino = 4 then ⟨.file, 0, deletedBytes, 0o644⟩
      else ⟨.file, 0, [121], 0o644⟩

def cutRoot : FsRoot := ⟨0, 0⟩

def cutControl : ControlDir := ⟨2, 0⟩

def deletedSeen : Seen := ⟨4, ⟨.file, 0, deletedBytes, 0o644⟩, 1⟩

/-- The seventeenth call of the discard removes the backup; then the machine stops. -/
def cutWorld : World :=
  ((undoDiscard plainCrates cutRoot plainOptions cutId).run.cut (fsKernel .plain) 17
    deletedWorld).reboot

theorem deletedWorld_ready : Ready .plain cutRoot deletedWorld cutControl := by
  refine ⟨⟨rfl, 1, ⟨?_, ?_⟩, ⟨?_, ?_⟩⟩, ⟨⟨3, ⟨.file, 0, [121], 0o644⟩, 1⟩, ?_, rfl, ?_⟩, ?_⟩
  all_goals decide +kernel

theorem deletedWorld_stored :
    StoredAs plainCrates .plain cutControl plainOptions deletedWorld cutId deletedReceipt
      deletedSeen := by
  have shows : deletedWorld.look (receiptSlot cutControl cutId) = some deletedSeen := by
    rw [World.look_eq_some_iff]
    exact ⟨by decide +kernel, by rfl⟩
  have decodes : decodeReceipt plainCrates cutId.value plainOptions deletedBytes =
      .ok deletedReceipt :=
    decodeReceipt_encode rfl rfl (List.cons_ne_nil _ _) (by decide) (by decide +kernel)
      (by dsimp only [deletedBody]) (by dsimp only [deletedBody])
  rw [← slot_receipt] at shows
  exact ⟨shows, rfl, by decide +kernel, decodes⟩

theorem cutWorld_cutShort :
    CutShort plainCrates .plain .stormy cutRoot plainOptions cutId deletedWorld cutWorld :=
  .crashed _ (Task.crashes_cut (step_exec trivial) 17 _ deletedWorld)

/-- The backup is gone, and the receipt is not. -/
theorem cutWorld_left :
    cutWorld.table.lookup ⟨2, artifactName cutId.value 0 "backup"⟩ = none ∧
      cutWorld.table.lookup (receiptSlot cutControl cutId) = some 4 := by
  decide +kernel

theorem cutWorld_gone : cutWorld.look ⟨2, artifactName cutId.value 0 "backup"⟩ = none :=
  World.look_eq_none_iff.mpr cutWorld_left.1

theorem cutWorld_there : cutWorld.look (receiptSlot cutControl cutId) ≠ none := by
  intro gone
  rw [World.look_eq_none_iff, cutWorld_left.2] at gone
  cases gone

/-- Nothing was tampered with, so nothing needs to be repaired. -/
theorem cutWorld_repaired :
    Repaired plainCrates .plain cutControl plainOptions deletedReceipt cutWorld cutWorld := by
  refine ⟨rfl, fun _ _ => rfl, fun _ _ gone => gone, fun path among name named there => ?_⟩
  cases List.mem_singleton.mp among
  cases named
  exact absurd cutWorld_gone there

/-- The receipt is still stored, and nothing consumes it any more. -/
theorem undoDiscard_restarts_not :
    ¬ Consumable plainCrates .plain cutRoot plainOptions cutId cutWorld := by
  refine (undoDiscard_restarts deletedWorld_ready deletedWorld_stored rfl cutWorld_cutShort
    cutWorld_repaired).2 cutWorld_there fun untouched => ?_
  exact untouched _ (.inl ⟨deletedPath, List.mem_singleton_self _, _, rfl, rfl⟩) cutWorld_gone

/-- A crash after the removal of the only backup ends every later discard and
rollback of the receipt, which is still there. -/
theorem cutWorld_stuck :
    Ready .plain cutRoot deletedWorld cutControl ∧
      StoredAs plainCrates .plain cutControl plainOptions deletedWorld cutId deletedReceipt
        deletedSeen ∧ deletedSeen.links = 1 ∧
      CutShort plainCrates .plain .stormy cutRoot plainOptions cutId deletedWorld cutWorld ∧
      Repaired plainCrates .plain cutControl plainOptions deletedReceipt cutWorld cutWorld ∧
      cutWorld.look (receiptSlot cutControl cutId) ≠ none ∧
      (∀ count finish, (undoDiscard plainCrates cutRoot plainOptions cutId).run.run
        (fsKernel .plain) cutWorld ≠ (.ok count, finish)) ∧
      ∀ report finish, (undoRollback plainCrates cutRoot plainOptions cutId).run.run
        (fsKernel .plain) cutWorld ≠ (.ok report, finish) := by
  obtain ⟨lost, locks⟩ := cutShort_lost deletedWorld_ready deletedWorld_stored rfl
    cutWorld_cutShort
  have ready := repaired_ready deletedWorld_ready deletedWorld_stored lost locks
    cutWorld_repaired
  have among : deletedPath ∈ deletedReceipt.paths := List.mem_singleton_self _
  have stored : StoredAs plainCrates .plain cutControl plainOptions cutWorld cutId
      deletedReceipt deletedSeen := by
    have kept := deletedWorld_stored
    refine ⟨?_, kept.file, kept.short, kept.decodes⟩
    rcases lost (receiptSlot cutControl cutId) with same | ⟨_, gone⟩
    · have shows := kept.shows
      rw [slot_receipt] at shows ⊢
      rw [same, shows]
    · exact absurd gone cutWorld_there
  refine ⟨deletedWorld_ready, deletedWorld_stored, rfl, cutWorld_cutShort, cutWorld_repaired,
    cutWorld_there, fun count finish ran => ?_, fun report finish ran => ?_⟩
  · obtain ⟨result, last, ended, _, ends⟩ := undoDiscard_present ready stored rfl
    rw [ran] at ended
    cases ended
    exact (ends.1 _ ⟨deletedPath, among, _, rfl, rfl⟩).1 cutWorld_gone
  · obtain ⟨error, refused⟩ := undoRollback_missing ready stored among rfl cutWorld_gone
    rw [refused] at ran
    cases ran

end Cut

end Undo

end Worktree
