import StatusBar.Proofs.Margins.Numerals

/-!
# Words in bytes

The integer that a word starts with, read off the bytes of its encoding: the sign and the digits
are counted in bytes, the word is cut there, and what is cut off is parsed as a whole.  A cut
within a character fails.  None ever is, as signs and digits take one byte each and no other
character has a byte that is one of theirs.
-/

namespace StatusBar

/-! ### Encoded texts -/

namespace Text

/-- The bytes of a text. -/
def bytes (text : List Char) : List UInt8 :=
  text.flatMap String.utf8EncodeChar

/-- A text cut after so many bytes, which fails within a character and beyond the end. -/
def cutBytes : Nat → List Char → Option (List Char × List Char)
  | 0, text => some ([], text)
  | _ + 1, [] => none
  | n + 1, c :: text =>
    if c.utf8Size ≤ n + 1 then
      (cutBytes (n + 1 - c.utf8Size) text).map fun (part, rest) => (c :: part, rest)
    else
      none

theorem length_bytes_cons (c : Char) (text : List Char) :
  (bytes (c :: text)).length = c.utf8Size + (bytes text).length
  := by
  rw [bytes, List.flatMap_cons, List.length_append, String.length_utf8EncodeChar, bytes]

theorem cutBytes_append (part rest : List Char) :
  cutBytes (bytes part).length (part ++ rest) = some (part, rest)
  := by
  induction part with
  | nil => simp [bytes, cutBytes]
  | cons c part ih =>
    have hsize := c.utf8Size_pos
    rw [length_bytes_cons, List.cons_append]
    obtain ⟨n, hn⟩ := Nat.exists_eq_add_of_lt (Nat.add_pos_left hsize (bytes part).length)
    rw [Nat.zero_add] at hn
    rw [hn, cutBytes, if_pos (by omega), ← hn, Nat.add_sub_cancel_left, ih]
    rfl

example : cutBytes 1 ['é'] = none := rfl

end Text

namespace Margins.Bytes

/-- Whether a byte is a digit from 0 to 9. -/
def isDigitByte (byte : UInt8) : Bool :=
  0x30 ≤ byte && byte ≤ 0x39

/-- Why a text is not an integer of 32 bits. -/
inductive ParseError where
  | empty
  | numeral (error : NumeralError)
  deriving DecidableEq, Repr

/-- The integer that digits continue, away from zero.  Each step has to stay within 32 bits. -/
def accumulate (negative : Bool) (value : Int32) : List Char → Except NumeralError Int32
  | [] => .ok value
  | c :: text =>
    if isDigit c then do
      let tenfold ← narrow (value.toInt * 10)
      let next ← narrow (tenfold.toInt + signed negative (digitValue c))
      accumulate negative next text
    else
      .error .invalidDigit

/-- The integer that a text without a sign writes. -/
def parseUnsigned (negative : Bool) : List Char → Except NumeralError Int32
  | [] => .error .invalidDigit
  | c :: text => accumulate negative 0 (c :: text)

/-- The integer that a whole text writes. -/
def parse : List Char → Except ParseError Int32
  | [] => .error .empty
  | '+' :: text => (parseUnsigned false text).mapError .numeral
  | '-' :: text => (parseUnsigned true text).mapError .numeral
  | text => (parseUnsigned false text).mapError .numeral

/-- How many bytes the sign of a word takes. -/
def signLength (word : List Char) : Nat :=
  if word.head? = some '+' ∨ word.head? = some '-' then 1 else 0

/-- The integer that a word starts with, if no cut is within a character. -/
def leadingInteger (word : List Char) : Option (Except ParseError Int32) := do
  let (_, unsigned) ← Text.cutBytes (signLength word) word
  let digits := ((Text.bytes unsigned).takeWhile isDigitByte).length
  if digits = 0 then return parse word
  let (number, _) ← Text.cutBytes (signLength word + digits) word
  return parse number

/-! ### Bytes of digits -/

theorem isDigit_iff {c : Char} :
  isDigit c = true ↔ 0x30 ≤ c.toNat ∧ c.toNat ≤ 0x39
  := by
  simp only [isDigit, Bool.and_eq_true, decide_eq_true_eq, Char.le_def, UInt32.le_iff_toNat_le]
  rfl

theorem isDigitByte_iff {byte : UInt8} :
  isDigitByte byte = true ↔ 0x30 ≤ byte.toNat ∧ byte.toNat ≤ 0x39
  := by
  simp only [isDigitByte, Bool.and_eq_true, decide_eq_true_eq, UInt8.le_iff_toNat_le]
  rfl

/-- The bytes of a character start with a digit only if it is one, and then there is no more. -/
theorem utf8EncodeChar_cases (c : Char) :
  (isDigit c = true ∧ ∃ byte, isDigitByte byte = true ∧ String.utf8EncodeChar c = [byte])
    ∨ (isDigit c = false
      ∧ ∃ byte more, isDigitByte byte = false ∧ String.utf8EncodeChar c = byte :: more)
  := by
  have hval : c.toNat = c.val.toNat := rfl
  by_cases hdigit : isDigit c = true
  · left
    use hdigit
    rw [isDigit_iff, hval] at hdigit
    use UInt8.ofNat c.val.toNat
    constructor
    · rw [isDigitByte_iff, UInt8.toNat_ofNat']
      omega
    · rw [String.utf8EncodeChar, if_pos (by omega)]
  · right
    use Bool.eq_false_iff.mpr hdigit
    rw [isDigit_iff, hval] at hdigit
    -- The first byte of several is not below 128.
    rw [String.utf8EncodeChar]
    split_ifs
    all_goals
      refine ⟨_, _, ?_, rfl⟩
      rw [← Bool.not_eq_true, isDigitByte_iff, UInt8.toNat_ofNat']
      omega

theorem takeWhile_isDigitByte (text : List Char) :
  (Text.bytes text).takeWhile isDigitByte = Text.bytes (text.takeWhile isDigit)
  := by
  induction text with
  | nil => rfl
  | cons c text ih =>
    obtain ⟨hc, byte, hbyte, hencode⟩ | ⟨hc, byte, more, hbyte, hencode⟩ := utf8EncodeChar_cases c
    · rw [List.takeWhile_cons_of_pos hc, Text.bytes, List.flatMap_cons, hencode]
      rw [List.singleton_append, List.takeWhile_cons_of_pos hbyte, ← Text.bytes, ih]
      rw [Text.bytes, Text.bytes, List.flatMap_cons, hencode]
      rfl
    · rw [List.takeWhile_cons_of_neg (by simp [hc]), Text.bytes, List.flatMap_cons, hencode]
      rw [List.cons_append, List.takeWhile_cons_of_neg (by simp [hbyte])]
      rfl

/-! ### Accumulating digits -/

/-- The number that digits continue. -/
def digitsFrom (n : Nat) (digits : List Char) : Nat :=
  digits.foldl (fun n c => n * 10 + digitValue c) n

theorem digitsFrom_cons (n : Nat) (c : Char) (digits : List Char) :
  digitsFrom n (c :: digits) = digitsFrom (n * 10 + digitValue c) digits
  := by
  rw [digitsFrom, digitsFrom, List.foldl_cons]

theorem le_digitsFrom (n : Nat) (digits : List Char) :
  n ≤ digitsFrom n digits
  := by
  induction digits generalizing n with
  | nil => exact Nat.le_refl n
  | cons c digits ih =>
    have hstep := ih (n * 10 + digitValue c)
    rw [digitsFrom_cons]
    omega

theorem signed_add (negative : Bool) (m n : Nat) :
  signed negative (m + n) = signed negative m + signed negative n
  := by
  cases negative with
  | true =>
    simp only [signed, if_true]
    omega
  | false => rfl

theorem signed_mul (negative : Bool) (m n : Nat) :
  signed negative (m * n) = signed negative m * n
  := by
  cases negative with
  | true => simp [signed]
  | false => rfl

/-- What is too far from zero stays so. -/
theorem narrow_error_of_le {negative : Bool} {m n : Nat} {error : NumeralError}
    (h : narrow (signed negative m) = .error error) (hle : m ≤ n) :
  narrow (signed negative n) = .error error
  := by
  have hmin : Int32.minValue.toInt ≤ 0 := by decide
  have hmax : 0 ≤ Int32.maxValue.toInt := by decide
  cases error with
  | invalidDigit => cases narrow_ne_invalidDigit _ h
  | tooLarge =>
    rw [narrow_eq_tooLarge_iff] at h ⊢
    cases negative
    all_goals
      simp only [signed, if_true, Bool.false_eq_true, if_false] at h ⊢
      omega
  | tooSmall =>
    rw [narrow_eq_tooSmall_iff] at h ⊢
    cases negative
    all_goals
      simp only [signed, if_true, Bool.false_eq_true, if_false] at h ⊢
      omega

/-- Digits are accumulated without an error as long as the exact number has 32 bits. -/
theorem accumulate_eq_narrow {negative : Bool} {digits : List Char}
    (hdigits : ∀ c ∈ digits, isDigit c = true) {value : Int32} {n : Nat}
    (hvalue : value.toInt = signed negative n) :
  accumulate negative value digits = narrow (signed negative (digitsFrom n digits))
  := by
  induction digits generalizing value n with
  | nil => exact (narrow_eq_ok_iff.mpr hvalue.symm).symm
  | cons c digits ih =>
    have hle := le_digitsFrom (n * 10 + digitValue c) digits
    have htens : signed negative n * 10 = signed negative (n * 10) :=
      (signed_mul negative n 10).symm
    rw [accumulate, if_pos (hdigits c List.mem_cons_self), hvalue, htens, digitsFrom_cons]
    cases htenfold : narrow (signed negative (n * 10)) with
    | error error =>
      rw [narrow_error_of_le htenfold (by omega)]
      rfl
    | ok tenfold =>
      rw [narrow_eq_ok_iff] at htenfold
      simp only [bind, Except.bind]
      rw [← htenfold, ← signed_add]
      cases hnext : narrow (signed negative (n * 10 + digitValue c)) with
      | error error => rw [narrow_error_of_le hnext hle]
      | ok next =>
        rw [narrow_eq_ok_iff] at hnext
        apply ih (fun d hd => hdigits d (List.mem_cons_of_mem c hd)) hnext.symm

theorem parseUnsigned_takeWhile (negative : Bool) (text : List Char) :
  parseUnsigned negative (text.takeWhile isDigit) = unsignedLead negative text
  := by
  have hdigits : ∀ c ∈ text.takeWhile isDigit, isDigit c = true :=
    List.all_eq_true.mp List.all_takeWhile
  rw [unsignedLead]
  cases htake : text.takeWhile isDigit with
  | nil => rfl
  | cons c digits =>
    rw [htake] at hdigits
    change _ = signedValue negative (c :: digits)
    rw [signedValue_eq_narrow]
    apply accumulate_eq_narrow hdigits
    cases negative <;> rfl

/-- A text without digits in front is no integer as a whole, too. -/
theorem parseUnsigned_of_takeWhile_eq_nil {text : List Char} (h : text.takeWhile isDigit = [])
    (negative : Bool) :
  parseUnsigned negative text = unsignedLead negative text
  := by
  rw [unsignedLead, h]
  cases text with
  | nil => rfl
  | cons c text =>
    have hc : ¬ isDigit c = true := by
      intro hc
      rw [List.takeWhile_cons_of_pos hc] at h
      cases h
    rw [parseUnsigned, accumulate, if_neg hc]

/-! ### Cutting words -/

/-- The digits of a text, or all of it if it starts with none. -/
def numeral (text : List Char) : List Char :=
  if text.takeWhile isDigit = [] then text else text.takeWhile isDigit

theorem parseUnsigned_numeral (negative : Bool) (text : List Char) :
  parseUnsigned negative (numeral text) = unsignedLead negative text
  := by
  rw [numeral]
  split
  case isTrue h => apply parseUnsigned_of_takeWhile_eq_nil h
  case isFalse => apply parseUnsigned_takeWhile

/-- The digits of a word are parsed together with its sign.  Both cuts are between characters. -/
theorem leadingInteger_append {sign text : List Char}
    (hsign : signLength (sign ++ text) = (Text.bytes sign).length) :
  leadingInteger (sign ++ text) = some (parse (sign ++ numeral text))
  := by
  rw [leadingInteger, hsign, Text.cutBytes_append, Option.bind_eq_bind, Option.bind_some]
  dsimp only
  rw [takeWhile_isDigitByte, numeral]
  by_cases h : text.takeWhile isDigit = []
  · rw [h]
    rfl
  · have hbytes : (Text.bytes (text.takeWhile isDigit)).length ≠ 0 := by
      obtain ⟨c, digits, hdigits⟩ := List.exists_cons_of_ne_nil h
      have hsize := c.utf8Size_pos
      rw [hdigits, Text.length_bytes_cons]
      omega
    have hlength : (Text.bytes sign).length + (Text.bytes (text.takeWhile isDigit)).length
        = (Text.bytes (sign ++ text.takeWhile isDigit)).length := by
      simp [Text.bytes]
    have htext : sign ++ text = (sign ++ text.takeWhile isDigit) ++ text.dropWhile isDigit := by
      rw [List.append_assoc, List.takeWhile_append_dropWhile]
    rw [if_neg hbytes, if_neg h, hlength, htext, Text.cutBytes_append]
    rfl

theorem head?_numeral (text : List Char) :
  (numeral text).head? = text.head?
  := by
  rw [numeral]
  split
  case isTrue => rfl
  case isFalse h =>
    cases text with
    | nil => rfl
    | cons c text =>
      rw [List.takeWhile_cons] at h ⊢
      split at h
      case isTrue hc => rw [if_pos hc, List.head?_cons, List.head?_cons]
      case isFalse => cases h rfl

theorem parse_of_head? {c : Char} (hplus : c ≠ '+') (hminus : c ≠ '-') {text : List Char}
    (h : text.head? = some c) :
  parse text = (parseUnsigned false text).mapError .numeral
  := by
  obtain ⟨rest, rfl⟩ := List.head?_eq_some_iff.mp h
  rw [parse.eq_def]
  split
  case h_1 heq => cases heq
  case h_2 heq => exact absurd (List.cons.inj heq).left hplus
  case h_3 heq => exact absurd (List.cons.inj heq).left hminus
  case h_4 => rfl

/-- No cut is within a character, whatever the word, and a word that is not empty is read as the
integer of 32 bits that it starts with. -/
theorem leadingInteger_eq_some (word : List Char) :
  leadingInteger word
    = some (if word = [] then .error .empty
        else (Margins.leadingInteger word).mapError .numeral)
  := by
  cases word with
  | nil => rfl
  | cons c rest =>
    rw [if_neg (List.cons_ne_nil c rest)]
    by_cases hplus : c = '+'
    · subst hplus
      rw [Margins.leadingInteger, ← parseUnsigned_numeral]
      exact @leadingInteger_append ['+'] rest rfl
    by_cases hminus : c = '-'
    · subst hminus
      rw [Margins.leadingInteger, ← parseUnsigned_numeral]
      exact @leadingInteger_append ['-'] rest rfl
    have hlead : Margins.leadingInteger (c :: rest) = unsignedLead false (c :: rest) := by
      simp [Margins.leadingInteger, hplus, hminus]
    have hsign : signLength (c :: rest) = 0 := by
      simp [signLength, hplus, hminus]
    rw [hlead, ← parseUnsigned_numeral, ← parse_of_head? hplus hminus (head?_numeral _)]
    exact @leadingInteger_append [] (c :: rest) hsign

end Margins.Bytes

end StatusBar
