import Worktree.Filesystem.StateFiles
import Worktree.Operation.Prepare
/-
The names of artifacts.

They are made of the identifier of the transaction, the number of the path and what the
artifact is. So no two of one transaction are alike, every one of them passes the check
of such names, and the file system reads each as it is.
-/

namespace Worktree

open CrashLogic

/-- What an artifact may be. -/
def ArtifactKind (suffix : String) : Prop :=
  suffix = "stage" ∨ suffix = "backup"

/-! ### Numbers -/

theorem ofDigitChars_zeros (count : Nat) (chars : List Char) :
    Nat.ofDigitChars 10 (List.replicate count '0' ++ chars) 0 = Nat.ofDigitChars 10 chars 0 := by
  induction count with
  | zero => rfl
  | succ count ih =>
      rw [List.replicate_succ, List.cons_append, Nat.ofDigitChars_cons]
      exact ih

theorem padded_injective {first second : Nat} (same : padded first = padded second) :
    first = second := by
  have read : ∀ index, Nat.ofDigitChars 10 (padded index) 0 = index := by
    intro index
    unfold padded
    rw [ofDigitChars_zeros, Nat.ofDigitChars_ten_toDigits]
  rw [← read first, same, read]

theorem padded_digits {index : Nat} {char : Char} (among : char ∈ padded index) :
    char.isDigit = true := by
  unfold padded at among
  rcases List.mem_append.mp among with zero | digit
  · rw [List.eq_of_mem_replicate zero]
    rfl
  · exact Nat.isDigit_of_mem_toDigits (by decide) (by decide) digit

/-! ### No two are alike -/

theorem artifactName_injective {id suffix : String} {first second : Nat}
    (same : artifactName id first suffix = artifactName id second suffix) : first = second := by
  have chars := congrArg String.toList same
  unfold artifactName at chars
  simp only [String.toList_append, String.toList_ofList, List.append_assoc,
    List.append_cancel_left_eq, List.append_cancel_right_eq] at chars
  exact padded_injective chars

theorem artifactName_index {id left right : String} {first second : Nat}
    (known : ArtifactKind left) (expected : ArtifactKind right)
    (same : artifactName id first left = artifactName id second right) : first = second := by
  have ends : left = right := by
    have chars := congrArg (fun name : String => name.toList.getLast?) same
    simp only [artifactName, String.toList_append, List.getLast?_append] at chars
    rcases known with rfl | rfl <;> rcases expected with rfl | rfl
    · rfl
    · simp at chars
    · simp at chars
    · rfl
  subst ends
  exact artifactName_injective same

/-! ### They pass the check -/

/-- Characters that an artifact's name may have. -/
def plainChar (char : Char) : Bool :=
  !(char = '/' || char = '\\')

theorem plainChar_of_hex {char : Char}
    (hex : (('0' ≤ char && char ≤ '9') || ('a' ≤ char && char ≤ 'f')) = true) :
    plainChar char = true := by
  unfold plainChar
  by_cases slash : char = '/'
  · subst slash
    cases hex
  · by_cases backslash : char = '\\'
    · subst backslash
      cases hex
    · simp [slash, backslash]

theorem plainChar_of_digit {char : Char} (digit : char.isDigit = true) :
    plainChar char = true := by
  unfold plainChar
  by_cases slash : char = '/'
  · subst slash
    cases digit
  · by_cases backslash : char = '\\'
    · subst backslash
      cases digit
    · simp [slash, backslash]

theorem artifactName_plain {id suffix : String} {index : Nat} (valid : isValidId id = true)
    (kind : ArtifactKind suffix) :
    ∀ char ∈ (artifactName id index suffix).toList, plainChar char = true := by
  unfold isValidId at valid
  rw [Bool.and_eq_true, List.all_eq_true] at valid
  have ends : suffix.toList.all plainChar = true := by
    rcases kind with rfl | rfl <;> decide
  intro char among
  unfold artifactName at among
  simp only [String.toList_append, String.toList_ofList, List.mem_append] at among
  rcases among with ((((first | inId) | dash) | number) | dot) | last
  · exact List.all_eq_true.mp (by decide : artifactPrefix.toList.all plainChar = true) char first
  · exact plainChar_of_hex (valid.2 char inId)
  · exact List.all_eq_true.mp (by decide : "-".toList.all plainChar = true) char dash
  · exact plainChar_of_digit (padded_digits number)
  · exact List.all_eq_true.mp (by decide : ".".toList.all plainChar = true) char dot
  · exact List.all_eq_true.mp ends char last

theorem artifactName_begins (id suffix : String) (index : Nat) :
    hasPrefix (artifactName id index suffix) artifactPrefix = true := by
  unfold artifactName
  simp only [String.append_assoc]
  exact hasPrefix_append artifactPrefix _

theorem validateArtifactName_of_id {id suffix : String} (index : Nat)
    (valid : isValidId id = true) (kind : ArtifactKind suffix) :
    validateArtifactName (artifactName id index suffix) = .ok () := by
  have starts := artifactName_begins id suffix index
  have some_ : artifactName id index suffix ≠ "" := by
    intro empty
    rw [empty] at starts
    cases starts
  have clear : ((artifactName id index suffix).toList.any
      fun char => char = '/' || char = '\\') = false := by
    rw [List.any_eq_false]
    intro char among bad
    have fine := artifactName_plain valid kind char among
    unfold plainChar at fine
    rw [bad] at fine
    cases fine
  unfold validateArtifactName
  rw [clear, starts, if_neg]
  simp [some_]

/-! ### They are read as they are -/

theorem artifactEnding_of_kind (index : Nat) {suffix : String} (kind : ArtifactKind suffix) :
    artifactEnding ("-" ++ String.ofList (padded index) ++ "." ++ suffix).toList = true := by
  have rest : ((padded index) ++ ('.' :: suffix.toList)).dropWhile Char.isDigit =
      '.' :: suffix.toList := by
    rw [List.dropWhile_append_of_pos fun char among => padded_digits among]
    rfl
  have chars : ("-" ++ String.ofList (padded index) ++ "." ++ suffix).toList =
      '-' :: (padded index ++ ('.' :: suffix.toList)) := by
    simp only [String.toList_append, String.toList_ofList, List.append_assoc]
    rfl
  rw [chars]
  unfold artifactEnding
  rw [List.head?_cons, List.tail_cons, rest]
  rcases kind with rfl | rfl <;> decide

theorem ownName_of_artifactName {id suffix : String} (index : Nat) (valid : isValidId id = true)
    (kind : ArtifactKind suffix) : ownName (artifactName id index suffix) = true := by
  have bears : bearsId ".weavatrix-" artifactEnding (artifactName id index suffix) = true := by
    have ends := artifactEnding_of_kind index kind
    have named : artifactName id index suffix = ".weavatrix-" ++ id ++
        ("-" ++ String.ofList (padded index) ++ "." ++ suffix) := by
      unfold artifactName artifactPrefix
      simp only [String.append_assoc]
    rw [named]
    exact bearsId_of_id valid ends
  unfold ownName
  rw [bears, Bool.or_true]

section

variable {host : Host} {id : String}

theorem slot_artifact (valid : isValidId id = true) (dir : Ino) (index : Nat) {suffix : String}
    (kind : ArtifactKind suffix) :
    host.slot dir (artifactName id index suffix) = ⟨dir, artifactName id index suffix⟩ :=
  slot_of_own (ownName_of_artifactName index valid kind)

end

/-! ### The identifier of a transaction -/

theorem hexDigit_hex (value : Nat) :
    (('0' ≤ Sha256Hash.hexDigit value && Sha256Hash.hexDigit value ≤ '9') ||
      ('a' ≤ Sha256Hash.hexDigit value && Sha256Hash.hexDigit value ≤ 'f')) = true := by
  have digits : "0123456789abcdef".toList.all (fun char =>
      ('0' ≤ char && char ≤ '9') || ('a' ≤ char && char ≤ 'f')) = true := by decide
  unfold Sha256Hash.hexDigit
  rw [List.getD_eq_getElem?_getD]
  cases found : "0123456789abcdef".toList[value]? with
  | none => rfl
  | some char => exact List.all_eq_true.mp digits char (List.mem_of_getElem? found)

theorem isValidId_of_bytes {bytes : Bytes} (sixteen : bytes.length = 16) :
    isValidId (String.ofList (Sha256Hash.hexOf bytes)) = true := by
  have counted : (Sha256Hash.hexOf bytes).length = 32 := by
    unfold Sha256Hash.hexOf
    rw [List.length_flatMap]
    simp [sixteen]
  unfold isValidId
  simp only [String.toList_ofList, counted, decide_true, Bool.true_and, List.all_eq_true]
  intro char among
  obtain ⟨byte, _, digit⟩ := List.mem_flatMap.mp among
  simp only [List.mem_cons, List.not_mem_nil, or_false] at digit
  rcases digit with rfl | rfl <;> exact hexDigit_hex _

/-- Drawing an identifier changes no entry. -/
theorem randomId_draws {host : Host} {weather : Weather} (here : World) :
    randomId.run.Meets (fsMachine host weather) (fun _ _ => True)
      (fun result finish => finish.table = here.table ∧ finish.inodes = here.inodes ∧
        ∀ id, result = .ok id → isValidId id = true) here := by
  unfold randomId orElse
  rw [Task.meets_except_bind, Task.meets_except_adapt]
  refine ⟨trivial, fun answer finish stepped => ?_⟩
  rcases stepped with executed | ⟨_, _, rfl, came, _⟩
  · cases executed
    refine ⟨rfl, rfl, fun id same => ?_⟩
    cases same
    apply isValidId_of_bytes
    rw [List.length_take, List.length_append, List.length_replicate]
    omega
  · have same : finish.table = here.table ∧ finish.inodes = here.inodes := by
      rcases came with rfl | ⟨rfl, _⟩ | torn
      · exact ⟨rfl, rfl⟩
      · exact ⟨rfl, rfl⟩
      · exact torn.elim
    refine ⟨same.1, same.2, fun id impossible => ?_⟩
    cases impossible

end Worktree
