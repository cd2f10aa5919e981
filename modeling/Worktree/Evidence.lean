import Worktree.Filesystem.World
/-
Exact evidence about one path: hash, size, identity and portable permissions.
-/

namespace Worktree

/-- A SHA-256 digest. -/
structure Sha256Hash where
  bytes : Bytes
  sized : bytes.length = 32
  deriving DecidableEq

namespace Sha256Hash

def hexDigit (value : Nat) : Char :=
  "0123456789abcdef".toList.getD value '0'

def hexOf (bytes : Bytes) : List Char :=
  bytes.flatMap fun byte => [hexDigit (byte.toNat / 16), hexDigit (byte.toNat % 16)]

/-- The lowercase hexadecimal form. -/
def display (hash : Sha256Hash) : String :=
  String.ofList (hexOf hash.bytes)

def nibble (char : Char) : Option Nat :=
  if '0' ≤ char ∧ char ≤ '9' then some (char.toNat - '0'.toNat)
  else if 'a' ≤ char ∧ char ≤ 'f' then some (char.toNat - 'a'.toNat + 10)
  else none

def parsePairs : List Char → Option Bytes
  | [] => some []
  | [_] => none
  | high :: low :: rest => do
      let high ← nibble high
      let low ← nibble low
      let rest ← parsePairs rest
      return UInt8.ofNat (high * 16 + low) :: rest

theorem parsePairs_length (chars : List Char) (bytes : Bytes)
    (parsed : parsePairs chars = some bytes) : chars.length = 2 * bytes.length := by
  induction chars using parsePairs.induct generalizing bytes with
  | case1 =>
      cases parsed
      rfl
  | case2 char => cases parsed
  | case3 high low rest ih =>
      simp only [parsePairs, Option.bind_eq_bind, Option.bind_eq_some_iff, Option.pure_def,
        Option.some.injEq] at parsed
      obtain ⟨_, _, _, _, tail, tailed, rfl⟩ := parsed
      have counted := ih tail tailed
      simp only [List.length_cons]
      omega

/-- A character that is not a lowercase hexadecimal digit is refused wherever it
stands, so counting characters decides as counting bytes would. -/
def parse (value : String) : Option Sha256Hash :=
  if counted : value.toList.length = 64 then
    match parsed : parsePairs value.toList with
    | some bytes => some ⟨bytes, by
        have := parsePairs_length _ _ parsed
        omega⟩
    | none => none
  else none

private theorem nibble_hexDigit (value : Nat) (small : value < 16) :
    nibble (hexDigit value) = some value := by
  have all : ∀ value : Fin 16, nibble (hexDigit value.val) = some value.val := by decide
  exact all ⟨value, small⟩

private theorem hexOf_length (bytes : Bytes) : (hexOf bytes).length = 2 * bytes.length := by
  induction bytes with
  | nil => rfl
  | cons byte rest ih =>
      simp only [hexOf, List.flatMap_cons, List.length_append, List.length_cons,
        List.length_nil] at ih ⊢
      omega

private theorem parsePairs_hexOf (bytes : Bytes) : parsePairs (hexOf bytes) = some bytes := by
  induction bytes with
  | nil => rfl
  | cons byte rest ih =>
      have high : byte.toNat / 16 < 16 := by
        have := byte.toNat_lt
        omega
      have joined : byte.toNat / 16 * 16 + byte.toNat % 16 = byte.toNat := by omega
      change parsePairs (hexDigit (byte.toNat / 16) :: hexDigit (byte.toNat % 16) ::
        hexOf rest) = _
      simp only [parsePairs, nibble_hexDigit _ high,
        nibble_hexDigit _ (Nat.mod_lt byte.toNat (by decide : 0 < 16)), ih, joined,
        Option.bind_eq_bind, Option.bind_some, Option.pure_def, UInt8.ofNat_toNat]

@[simp] theorem parse_display (hash : Sha256Hash) : parse hash.display = some hash := by
  have counted : hash.display.toList.length = 64 := by
    rw [display, String.toList_ofList, hexOf_length, hash.sized]
  have parsed : parsePairs hash.display.toList = some hash.bytes := by
    rw [display, String.toList_ofList, parsePairs_hexOf]
  rw [parse, dif_pos counted]
  split
  · next bytes found =>
      rw [parsed] at found
      cases found
      rfl
  · next found =>
      rw [parsed] at found
      cases found

end Sha256Hash

structure FileIdentity where
  device : Nat
  inode : Nat
  deriving DecidableEq, Repr

structure ParentIdentity where
  device : Nat
  inode : Nat
  deriving DecidableEq, Repr

/-- Permission evidence that can be persisted and compared across recovery. -/
structure PortablePermissions where
  readonly : Bool
  unixMode : Option Nat
  deriving DecidableEq, Repr

/-- No write bit is set. -/
def Mode.readonly (mode : Mode) : Bool :=
  mode &&& 0o222#12 = 0

def Mode.setReadonly (mode : Mode) (readonly : Bool) : Mode :=
  if readonly then mode &&& 0o7555#12 else mode ||| 0o222#12

namespace PortablePermissions

def fromPermissions (mode : Mode) : PortablePermissions :=
  { readonly := Mode.readonly mode
    unixMode := some mode.toNat }

def applyTo (permissions : PortablePermissions) (mode : Mode) : Mode :=
  match permissions.unixMode with
  | some unixMode => BitVec.ofNat 12 unixMode
  | none => Mode.setReadonly mode permissions.readonly

end PortablePermissions

structure PresentEvidence where
  sha256 : Sha256Hash
  bytes : Nat
  identity : FileIdentity
  permissions : PortablePermissions
  deriving DecidableEq

inductive SlotEvidence
  | absent
  | present (evidence : PresentEvidence)
  deriving DecidableEq

def SlotEvidence.present? : SlotEvidence → Option PresentEvidence
  | .absent => none
  | .present evidence => some evidence

end Worktree
