import Mathlib.Data.List.Basic
/-
Printers with the parsers that undo them.

A format prints values as bytes and reads one back from the front of an input.
Formats are put together by combinators whose side conditions compare literals
only, so that they are decided once for each format. The texts are those of
JSON without blanks.
-/

namespace CrashLogic

abbrev Text := List UInt8

def ascii (text : String) : Text :=
  text.toList.map fun char => UInt8.ofNat char.toNat

namespace Text

def isDigit (byte : UInt8) : Bool :=
  48 ≤ byte && byte ≤ 57

/-- Nothing here could belong to a number. -/
def stops : Text → Bool
  | [] => true
  | byte :: _ => !isDigit byte

/-- A text that stops a number wherever it stands. -/
def solid : Text → Bool
  | [] => false
  | byte :: _ => !isDigit byte

/-- Neither text begins with the other. -/
def apart (first second : Text) : Bool :=
  !first.isPrefixOf second && !second.isPrefixOf first

def clean (text : Text) : Bool :=
  text.all fun byte => byte ≠ 10

/-- What follows a literal. -/
def strip (start input : Text) : Option Text :=
  if start.isPrefixOf input then some (input.drop start.length) else none

variable {start other input rest : Text}

theorem strip_append : strip start (start ++ rest) = some rest := by
  have begins : start.isPrefixOf (start ++ rest) = true :=
    List.isPrefixOf_iff_prefix.mpr (List.prefix_append start rest)
  rw [strip, if_pos begins, List.drop_left]

theorem strip_apart (different : apart start other = true) (begins : other <+: input) :
    strip start input = none := by
  unfold strip
  rw [if_neg]
  intro also
  simp only [apart, Bool.and_eq_true, Bool.not_eq_true', Bool.eq_false_iff, ne_eq,
    List.isPrefixOf_iff_prefix] at different also
  rcases List.prefix_or_prefix_of_prefix also begins with first | second
  · exact different.1 first
  · exact different.2 second

theorem stops_of_solid (firm : solid start = true) (begins : start <+: input) :
    stops input = true := by
  obtain ⟨rest, rfl⟩ := begins
  cases start with
  | nil => cases firm
  | cons byte start => exact firm

theorem clean_iff {text : Text} : clean text = true ↔ (10 : UInt8) ∉ text := by
  unfold clean
  rw [List.all_eq_true]
  constructor
  · intro all among
    simpa using all 10 among
  · intro missing byte among
    simp only [decide_eq_true_eq]
    rintro rfl
    exact missing among

end Text

/-- A printer and a parser. What is printed begins with one of the `starts`. -/
structure Format (α : Type) where
  print : α → Text
  parse : Text → Option (α × Text)
  starts : List Text
  parses : ∀ value rest, Text.stops rest = true → parse (print value ++ rest) = some (value, rest)
  begins : ∀ value, ∃ start ∈ starts, start <+: print value
  cleans : ∀ value, Text.clean (print value) = true

namespace Format

open Text

variable {α β γ : Type}

theorem solid_print (format : Format α) (firm : format.starts.all solid = true) (value : α)
    (rest : Text) : stops (format.print value ++ rest) = true := by
  obtain ⟨start, among, begins⟩ := format.begins value
  exact stops_of_solid (List.all_eq_true.mp firm start among)
    (begins.trans (List.prefix_append _ rest))

theorem strip_print (format : Format α) {start : Text}
    (different : format.starts.all (apart start) = true) (value : α) (rest : Text) :
    strip start (format.print value ++ rest) = none := by
  obtain ⟨other, among, begins⟩ := format.begins value
  exact strip_apart (List.all_eq_true.mp different other among)
    (begins.trans (List.prefix_append _ rest))

theorem clean_nil : clean [] = true := rfl

theorem clean_append {first second : Text} (left : clean first = true)
    (right : clean second = true) : clean (first ++ second) = true := by
  unfold clean at *
  rw [List.all_append, left, right]
  rfl

theorem clean_cons {byte : UInt8} {rest : Text} (other : byte ≠ 10) (tail : clean rest = true) :
    clean (byte :: rest) = true := by
  unfold clean at *
  rw [List.all_cons, tail, Bool.and_true, decide_eq_true_eq]
  exact other

/-! ### Literals -/

/-- A literal, and nothing to say. -/
def literal (start : Text) (plain : clean start = true := by decide +kernel) : Format Unit where
  print := fun _ => start
  parse := fun input => (strip start input).map fun rest => ((), rest)
  starts := [start]
  parses := by
    intro value rest _
    rw [strip_append]
    rfl
  begins := fun _ => ⟨start, List.mem_cons_self, List.prefix_rfl⟩
  cleans := fun _ => plain

/-- A literal before the value. -/
def after (start : Text) (format : Format α) (plain : clean start = true := by decide +kernel) :
    Format α where
  print := fun value => start ++ format.print value
  parse := fun input => (strip start input).bind format.parse
  starts := [start]
  parses := by
    intro value rest stopped
    rw [List.append_assoc, strip_append]
    exact format.parses value rest stopped
  begins := fun value => ⟨start, List.mem_cons_self, List.prefix_append ..⟩
  cleans := fun value => clean_append plain (format.cleans value)

/-- Two values, the second of which begins with no digit. -/
def pair (first : Format α) (second : Format β)
    (firm : second.starts.all solid = true := by decide +kernel) : Format (α × β) where
  print := fun value => first.print value.1 ++ second.print value.2
  parse := fun input => (first.parse input).bind fun found =>
    (second.parse found.2).map fun other => ((found.1, other.1), other.2)
  starts := first.starts
  parses := by
    intro value rest stopped
    rw [List.append_assoc, first.parses _ _ (solid_print second firm _ _)]
    change (second.parse _).map _ = _
    rw [second.parses _ _ stopped]
    rfl
  begins := fun value => by
    obtain ⟨start, among, begins⟩ := first.begins value.1
    exact ⟨start, among, begins.trans (List.prefix_append ..)⟩
  cleans := fun value => clean_append (first.cleans value.1) (second.cleans value.2)

/-! ### Choices -/

/-- A literal tells the first kind from the second. -/
def either (start : Text) (first : Format α) (second : Format β)
    (plain : clean start = true := by decide +kernel)
    (different : second.starts.all (apart start) = true := by decide +kernel) :
    Format (α ⊕ β) where
  print
    | .inl value => start ++ first.print value
    | .inr value => second.print value
  parse := fun input =>
    match strip start input with
    | some rest => (first.parse rest).map fun found => (.inl found.1, found.2)
    | none => (second.parse input).map fun found => (.inr found.1, found.2)
  starts := start :: second.starts
  parses := by
    intro value rest stopped
    cases value with
    | inl value =>
        rw [List.append_assoc, strip_append]
        change (first.parse _).map _ = _
        rw [first.parses _ _ stopped]
        rfl
    | inr value =>
        rw [strip_print second different]
        change (second.parse _).map _ = _
        rw [second.parses _ _ stopped]
        rfl
  begins := fun value => by
    cases value with
    | inl value => exact ⟨start, List.mem_cons_self, List.prefix_append ..⟩
    | inr value =>
        obtain ⟨other, among, begins⟩ := second.begins value
        exact ⟨other, List.mem_cons_of_mem _ among, begins⟩
  cleans := fun value => by
    cases value with
    | inl value => exact clean_append plain (first.cleans value)
    | inr value => exact second.cleans value

/-- A field that is left out when there is nothing to say. -/
def optional (start : Text) (first : Format α) (second : Format β)
    (plain : clean start = true := by decide +kernel)
    (firm : second.starts.all solid = true := by decide +kernel)
    (different : second.starts.all (apart start) = true := by decide +kernel) :
    Format (Option α × β) where
  print
    | (none, value) => second.print value
    | (some found, value) => start ++ (first.print found ++ second.print value)
  parse := fun input =>
    match strip start input with
    | some rest => ((pair first second firm).parse rest).map fun found =>
        ((some found.1.1, found.1.2), found.2)
    | none => (second.parse input).map fun found => ((none, found.1), found.2)
  starts := start :: second.starts
  parses := by
    intro value rest stopped
    obtain ⟨found, value⟩ := value
    cases found with
    | none =>
        rw [strip_print second different]
        change (second.parse _).map _ = _
        rw [second.parses _ _ stopped]
        rfl
    | some found =>
        rw [List.append_assoc, strip_append]
        change ((pair first second firm).parse ((pair first second firm).print (found, value) ++
          rest)).map _ = _
        rw [(pair first second firm).parses _ _ stopped]
        rfl
  begins := fun value => by
    obtain ⟨found, value⟩ := value
    cases found with
    | none =>
        obtain ⟨other, among, begins⟩ := second.begins value
        exact ⟨other, List.mem_cons_of_mem _ among, begins⟩
    | some found => exact ⟨start, List.mem_cons_self, List.prefix_append ..⟩
  cleans := fun value => by
    obtain ⟨found, value⟩ := value
    cases found with
    | none => exact second.cleans value
    | some found =>
        exact clean_append plain (clean_append (first.cleans found) (second.cleans value))

/-! ### Other values -/

/-- Values of another type, printed as those they go to. -/
def refine (format : Format α) (forth : β → α) (back : α → Option β)
    (same : ∀ value, back (forth value) = some value) : Format β where
  print := fun value => format.print (forth value)
  parse := fun input => (format.parse input).bind fun found =>
    (back found.1).map fun value => (value, found.2)
  starts := format.starts
  parses := by
    intro value rest stopped
    rw [format.parses _ _ stopped]
    change (back (forth value)).map _ = _
    rw [same]
    rfl
  begins := fun value => format.begins (forth value)
  cleans := fun value => format.cleans (forth value)

def convert (format : Format α) (forth : β → α) (back : α → β)
    (same : ∀ value, back (forth value) = value) : Format β :=
  format.refine forth (fun value => some (back value)) fun value => congrArg some (same value)

/-! ### Numbers -/

def decimal (value : Nat) : Text :=
  (Nat.toDigits 10 value).map fun char => UInt8.ofNat char.toNat

def ofDecimal (digits : Text) : Nat :=
  Nat.ofDigitChars 10 (digits.map fun byte => Char.ofNat byte.toNat) 0

theorem digit_char {char : Char} (digit : char.isDigit = true) :
    48 ≤ char.toNat ∧ char.toNat ≤ 57 := by
  simp only [Char.isDigit, Bool.and_eq_true, decide_eq_true_eq] at digit
  exact ⟨UInt32.le_iff_toNat_le.mp digit.1, UInt32.le_iff_toNat_le.mp digit.2⟩

theorem decimal_digits (value : Nat) : ∀ byte ∈ decimal value, isDigit byte = true := by
  intro byte among
  obtain ⟨char, found, rfl⟩ := List.mem_map.mp among
  have bounds := digit_char (Nat.isDigit_of_mem_toDigits (by decide) (by decide) found)
  unfold isDigit
  rw [Bool.and_eq_true, decide_eq_true_eq, decide_eq_true_eq, UInt8.le_iff_toNat_le,
    UInt8.le_iff_toNat_le, UInt8.toNat_ofNat']
  change 48 ≤ char.toNat % 256 ∧ char.toNat % 256 ≤ 57
  omega

theorem decimal_ne_nil (value : Nat) : decimal value ≠ [] := by
  unfold decimal
  rw [ne_eq, List.map_eq_nil_iff]
  exact Nat.toDigits_ne_nil

theorem ofDecimal_decimal (value : Nat) : ofDecimal (decimal value) = value := by
  unfold ofDecimal decimal
  rw [List.map_map]
  have same : (Nat.toDigits 10 value).map
      ((fun byte : UInt8 => Char.ofNat byte.toNat) ∘ fun char => UInt8.ofNat char.toNat) =
      Nat.toDigits 10 value := by
    refine (List.map_congr_left fun char among => ?_).trans (List.map_id _)
    have bounds := digit_char (Nat.isDigit_of_mem_toDigits (by decide) (by decide) among)
    have small : (UInt8.ofNat char.toNat).toNat = char.toNat := by
      rw [UInt8.toNat_ofNat']
      omega
    rw [Function.comp_apply, small, Char.ofNat_toNat]
    rfl
  rw [same, Nat.ofDigitChars_ten_toDigits]

def digitTexts : List Text :=
  (List.range 10).map fun digit => [UInt8.ofNat (48 + digit)]

theorem digit_start {byte : UInt8} (digit : isDigit byte = true) : [byte] ∈ digitTexts := by
  unfold isDigit at digit
  simp only [Bool.and_eq_true, decide_eq_true_eq, UInt8.le_iff_toNat_le] at digit
  refine List.mem_map.mpr ⟨byte.toNat - 48, List.mem_range.mpr ?_, ?_⟩
  · have above : byte.toNat ≤ 57 := digit.2
    omega
  · have below : 48 ≤ byte.toNat := digit.1
    rw [Nat.add_sub_cancel' below, UInt8.ofNat_toNat]

def nat : Format Nat where
  print := decimal
  parse := fun input =>
    if input.takeWhile isDigit = [] then none
    else some (ofDecimal (input.takeWhile isDigit), input.dropWhile isDigit)
  starts := digitTexts
  parses := by
    intro value rest stopped
    have nothing : rest.takeWhile isDigit = [] ∧ rest.dropWhile isDigit = rest := by
      cases rest with
      | nil => exact ⟨rfl, rfl⟩
      | cons byte rest =>
          have other : isDigit byte = false := by simpa [stops] using stopped
          rw [List.takeWhile_cons, List.dropWhile_cons, other]
          exact ⟨rfl, rfl⟩
    rw [List.takeWhile_append_of_pos (decimal_digits value),
      List.dropWhile_append_of_pos (decimal_digits value), nothing.1, nothing.2, List.append_nil,
      if_neg (decimal_ne_nil value), ofDecimal_decimal]
  begins := fun value => by
    cases digits : decimal value with
    | nil => exact absurd digits (decimal_ne_nil value)
    | cons byte rest =>
        have digit := decimal_digits value byte (digits ▸ List.mem_cons_self)
        exact ⟨[byte], digit_start digit, ⟨rest, rfl⟩⟩
  cleans := fun value => by
    rw [clean_iff]
    intro among
    exact absurd (decimal_digits value 10 among) (by decide)

/-! ### Strings -/

def hexByte (value : UInt8) : UInt8 :=
  if value < 10 then 48 + value else 87 + value

def unhexByte (byte : UInt8) : UInt8 :=
  if byte < 58 then byte - 48 else byte - 87

/-- One byte between quotes; control characters are written out. -/
def escape (byte : UInt8) : Text :=
  if byte = 34 then [92, 34]
  else if byte = 92 then [92, 92]
  else if byte < 32 then [92, 117, 48, 48, hexByte (byte / 16), hexByte (byte % 16)]
  else [byte]

/-- The bytes up to the closing quote. -/
def unescape : Nat → Text → Option (Text × Text)
  | 0, _ => none
  | _ + 1, [] => none
  | fuel + 1, byte :: rest =>
      if byte = 34 then some ([], rest)
      else if byte = 92 then
        match rest with
        | [] => none
        | code :: rest =>
            if code = 117 then
              match rest with
              | _ :: _ :: high :: low :: rest =>
                  (unescape fuel rest).map fun found =>
                    ((unhexByte high * 16 + unhexByte low) :: found.1, found.2)
              | _ => none
            else (unescape fuel rest).map fun found => (code :: found.1, found.2)
      else (unescape fuel rest).map fun found => (byte :: found.1, found.2)

/-- What holds of all 256 bytes holds of every byte. -/
theorem forall_byte {P : UInt8 → Prop} (all : ∀ value : Fin 256, P (UInt8.ofNat value))
    (byte : UInt8) : P byte := by
  have found := all ⟨byte.toNat, byte.toNat_lt⟩
  rw [UInt8.ofNat_toNat] at found
  exact found

theorem hex_byte (byte : UInt8) : byte < 32 →
    unhexByte (hexByte (byte / 16)) * 16 + unhexByte (hexByte (byte % 16)) = byte :=
  forall_byte (P := fun byte => byte < 32 →
    unhexByte (hexByte (byte / 16)) * 16 + unhexByte (hexByte (byte % 16)) = byte)
    (by decide +kernel) byte

theorem escape_clean (byte : UInt8) : clean (escape byte) = true :=
  forall_byte (P := fun byte => clean (escape byte) = true) (by decide +kernel) byte

theorem unescape_escape (fuel : Nat) (byte : UInt8) (rest : Text) :
    unescape (fuel + 1) (escape byte ++ rest) =
      (unescape fuel rest).map fun found => (byte :: found.1, found.2) := by
  unfold escape
  split
  · next quote =>
      subst quote
      rfl
  · next plain =>
      split
      · next slash =>
          subst slash
          rfl
      · next other =>
          split
          · next control =>
              have same := hex_byte byte control
              change (unescape fuel rest).map (fun found =>
                ((unhexByte (hexByte (byte / 16)) * 16 + unhexByte (hexByte (byte % 16))) ::
                  found.1, found.2)) = _
              rw [same]
          · change (if byte = 34 then _ else if byte = 92 then _ else _) = _
            rw [if_neg plain, if_neg other]
            rfl

theorem unescape_flatMap (text rest : Text) (fuel : Nat) (enough : text.length < fuel) :
    unescape fuel (text.flatMap escape ++ 34 :: rest) = some (text, rest) := by
  obtain ⟨fuel, rfl⟩ : ∃ less, fuel = less + 1 := ⟨fuel - 1, by omega⟩
  induction text generalizing fuel with
  | nil => rfl
  | cons byte text ih =>
      rw [List.length_cons] at enough
      obtain ⟨fuel, rfl⟩ : ∃ less, fuel = less + 1 := ⟨fuel - 1, by omega⟩
      rw [List.flatMap_cons, List.append_assoc, unescape_escape, ih fuel (by omega)]
      rfl

theorem length_le_flatMap (text : Text) : text.length ≤ (text.flatMap escape).length := by
  induction text with
  | nil => exact Nat.le_refl _
  | cons byte text ih =>
      have some_byte : 0 < (escape byte).length := by
        unfold escape
        split
        · exact Nat.succ_pos _
        · split
          · exact Nat.succ_pos _
          · split <;> exact Nat.succ_pos _
      rw [List.flatMap_cons, List.length_append, List.length_cons]
      omega

def quoted : Format Text where
  print := fun text => 34 :: (text.flatMap escape ++ [34])
  parse
    | 34 :: rest => unescape rest.length rest
    | _ => none
  starts := [[34]]
  parses := by
    intro text rest _
    change unescape ((text.flatMap escape ++ [34]) ++ rest).length
      ((text.flatMap escape ++ [34]) ++ rest) = _
    rw [List.append_assoc]
    refine unescape_flatMap text rest _ ?_
    have counted := length_le_flatMap text
    rw [List.length_append, List.singleton_append, List.length_cons]
    omega
  begins := fun text => ⟨[34], List.mem_cons_self, ⟨text.flatMap escape ++ [34], rfl⟩⟩
  cleans := fun text => by
    have inside : clean (text.flatMap escape) = true := by
      unfold clean
      rw [List.all_flatMap, List.all_eq_true]
      exact fun byte _ => escape_clean byte
    exact clean_cons (by decide) (clean_append inside rfl)

def utf8Text (text : String) : Text :=
  text.toUTF8.data.toList

def ofUtf8 (bytes : Text) : Option String :=
  String.fromUTF8? ⟨bytes.toArray⟩

theorem ofUtf8_utf8Text (text : String) : ofUtf8 (utf8Text text) = some text := by
  unfold ofUtf8 utf8Text String.fromUTF8?
  rw [Array.toArray_toList]
  exact dif_pos text.isValidUTF8

def string : Format String :=
  quoted.refine utf8Text ofUtf8 ofUtf8_utf8Text

def bool : Format Bool :=
  (either (ascii "true") (literal [] clean_nil) (literal (ascii "false"))).convert
    (fun value => if value then .inl () else .inr ()) (fun found => found.isLeft) fun value => by
      cases value <;> rfl

/-! ### Lists -/

/-- What follows an item: a comma and further items, or the bracket. -/
def parseRest (format : Format α) : Nat → Text → Option (List α × Text)
  | _, 93 :: rest => some ([], rest)
  | fuel + 1, 44 :: rest =>
      (format.parse rest).bind fun found =>
        (parseRest format fuel found.2).map fun others => (found.1 :: others.1, others.2)
  | _, _ => none

def printRest (format : Format α) (values : List α) : Text :=
  values.flatMap fun value => 44 :: format.print value

theorem parseRest_printRest (format : Format α) (values : List α) (rest : Text) (fuel : Nat)
    (enough : values.length ≤ fuel) :
    parseRest format fuel (printRest format values ++ 93 :: rest) = some (values, rest) := by
  induction values generalizing fuel with
  | nil => cases fuel <;> rfl
  | cons value values ih =>
      obtain ⟨fuel, rfl⟩ : ∃ less, fuel = less + 1 := ⟨fuel - 1, by
        rw [List.length_cons] at enough
        omega⟩
      have split : printRest format (value :: values) ++ 93 :: rest =
          44 :: (format.print value ++ (printRest format values ++ 93 :: rest)) := by
        simp [printRest]
      have stopped : stops (printRest format values ++ 93 :: rest) = true := by
        cases values <;> rfl
      rw [split, parseRest, format.parses _ _ stopped]
      change (parseRest format fuel _).map _ = _
      rw [ih fuel (by rw [List.length_cons] at enough; omega)]
      rfl

theorem length_le_printRest (format : Format α) (values : List α) :
    values.length ≤ (printRest format values).length := by
  induction values with
  | nil => exact Nat.le_refl _
  | cons value values ih =>
      simp only [printRest, List.flatMap_cons, List.length_cons, List.length_append] at ih ⊢
      omega

/-- What follows the opening bracket. -/
def parseItems (format : Format α) (input : Text) : Option (List α × Text) :=
  match strip [93] input with
  | some rest => some ([], rest)
  | none => (format.parse input).bind fun found =>
      (parseRest format found.2.length found.2).map fun others =>
        (found.1 :: others.1, others.2)

/-- The items between brackets. -/
def list (format : Format α)
    (different : format.starts.all (apart [93]) = true := by decide +kernel) :
    Format (List α) where
  print
    | [] => [91, 93]
    | value :: values => 91 :: (format.print value ++ (printRest format values ++ [93]))
  parse
    | 91 :: rest => parseItems format rest
    | _ => none
  starts := [[91]]
  parses := by
    intro values rest _
    cases values with
    | nil => rfl
    | cons value values =>
        have stopped : stops (printRest format values ++ 93 :: rest) = true := by
          cases values <;> rfl
        have split : (91 :: (format.print value ++ (printRest format values ++ [93]))) ++ rest =
            91 :: (format.print value ++ (printRest format values ++ 93 :: rest)) := by simp
        dsimp only
        rw [split]
        change parseItems format _ = _
        unfold parseItems
        rw [strip_print format different, format.parses _ _ stopped]
        change (parseRest format _ _).map _ = _
        rw [parseRest_printRest format values rest _ (by
          rw [List.length_append]
          have counted := length_le_printRest format values
          omega)]
        rfl
  begins := fun values => by
    cases values with
    | nil => exact ⟨[91], List.mem_cons_self, ⟨[93], rfl⟩⟩
    | cons value values => exact ⟨[91], List.mem_cons_self, ⟨_, rfl⟩⟩
  cleans := fun values => by
    cases values with
    | nil => rfl
    | cons value values =>
        have rest : clean (printRest format values) = true := by
          unfold clean printRest
          rw [List.all_flatMap, List.all_eq_true]
          intro other _
          exact clean_cons (by decide) (format.cleans other)
        exact clean_cons (by decide)
          (clean_append (format.cleans value) (clean_append rest rfl))

end Format

end CrashLogic
