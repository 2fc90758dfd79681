import Mathlib.Data.Nat.Digits.Defs
import Mathlib.Tactic.Use
import StatusBar.Margins

/-!
# Integers that words start with

A word starts with an integer if its digits, after a sign or not, write one in base ten;
whatever follows the digits does not count.  The integer is read if it has 32 bits, and each
other word is at fault in one of three ways.
-/

namespace StatusBar.Margins

/-! ### What a word starts with -/

/-- The value of a digit. -/
def digitValue (c : Char) : Nat :=
  c.toNat - '0'.toNat

/-- A text starts with digits, at least one and as many as there are, that write a number in
base ten. -/
def Numbered (text : List Char) (n : Nat) : Prop :=
  ∃ digits rest, text = digits ++ rest ∧ digits ≠ [] ∧ (∀ c ∈ digits, isDigit c = true)
    ∧ (∀ c ∈ rest.head?, isDigit c = false) ∧ n = Nat.ofDigits 10 (digits.map digitValue).reverse

/-- A word starts with an integer. -/
inductive StartsWith : List Char → Int → Prop
  | plain {text : List Char} {n : Nat} (h : Numbered text n) : StartsWith text n
  | plus {text : List Char} {n : Nat} (h : Numbered text n) : StartsWith ('+' :: text) n
  | minus {text : List Char} {n : Nat} (h : Numbered text n) : StartsWith ('-' :: text) (-n)

/-- What is wrong with a word. -/
inductive Faulty (word : List Char) : NumeralError → Prop
  | invalidDigit (h : ∀ value, ¬ StartsWith word value) : Faulty word .invalidDigit
  | tooLarge {value : Int} (h : StartsWith word value) (hvalue : Int32.maxValue.toInt < value) :
    Faulty word .tooLarge
  | tooSmall {value : Int} (h : StartsWith word value) (hvalue : value < Int32.minValue.toInt) :
    Faulty word .tooSmall

/-! ### Integers of 32 bits -/

/-- The word of 32 bits for an integer, if there is one. -/
def narrow (value : Int) : Except NumeralError Int32 :=
  if value < Int32.minValue.toInt then
    .error .tooSmall
  else if Int32.maxValue.toInt < value then
    .error .tooLarge
  else
    .ok (.ofInt value)

theorem narrow_eq_tooSmall_iff {value : Int} :
  narrow value = .error .tooSmall ↔ value < Int32.minValue.toInt
  := by
  constructor
  · intro h
    by_contra hlow
    rw [narrow, if_neg hlow] at h
    split at h <;> cases h
  · intro hlow
    rw [narrow, if_pos hlow]

theorem narrow_eq_tooLarge_iff {value : Int} :
  narrow value = .error .tooLarge ↔ Int32.maxValue.toInt < value
  := by
  have hbounds : Int32.minValue.toInt ≤ Int32.maxValue.toInt := by decide
  constructor
  · intro h
    by_contra hhigh
    rw [narrow, if_neg hhigh] at h
    split at h <;> cases h
  · intro hhigh
    rw [narrow, if_neg (by omega), if_pos hhigh]

theorem narrow_ne_invalidDigit (value : Int) :
  narrow value ≠ .error .invalidDigit
  := by
  rw [narrow]
  split
  · simp
  · split <;> simp

theorem narrow_eq_ok_iff {value : Int} {word : Int32} :
  narrow value = .ok word ↔ value = word.toInt
  := by
  constructor
  · intro h
    rw [narrow] at h
    split at h
    case isTrue => cases h
    case isFalse hlow =>
      split at h
      case isTrue => cases h
      case isFalse hhigh =>
        cases h
        rw [Int32.toInt_minValue] at hlow
        rw [Int32.toInt_maxValue] at hhigh
        rw [Int32.toInt_ofInt_of_le (by omega) (by omega)]
  · rintro rfl
    have hlow := word.minValue_le_toInt
    have hhigh := word.toInt_le
    rw [narrow, if_neg (by omega), if_neg (by omega), Int32.ofInt_toInt]

/-! ### The digits of a word -/

theorem digitsValue_eq_ofDigits (digits : List Char) :
  digitsValue digits = Nat.ofDigits 10 (digits.map digitValue).reverse
  := by
  rw [Nat.ofDigits_eq_foldr, List.foldr_reverse, List.foldl_map, digitsValue]
  congr
  funext n c
  rw [Nat.add_comm, Nat.mul_comm]
  rfl

/-- The digits that count are those that the text starts with. -/
theorem numbered_iff {text : List Char} {n : Nat} :
  Numbered text n ↔ text.takeWhile isDigit ≠ [] ∧ digitsValue (text.takeWhile isDigit) = n
  := by
  constructor
  · rintro ⟨digits, rest, rfl, hne, hdigits, hrest, rfl⟩
    have hrest' : rest.takeWhile isDigit = [] := by
      cases rest with
      | nil => rfl
      | cons c rest => simp [hrest c rfl]
    rw [List.takeWhile_append_of_pos hdigits, hrest', List.append_nil]
    use hne
    apply digitsValue_eq_ofDigits
  · rintro ⟨hne, rfl⟩
    use text.takeWhile isDigit, text.dropWhile isDigit, List.takeWhile_append_dropWhile.symm, hne
    use List.all_eq_true.mp List.all_takeWhile
    refine ⟨?_, digitsValue_eq_ofDigits _⟩
    intro c hc
    have hhead := List.head?_dropWhile_not isDigit text
    rw [hc] at hhead
    simpa using hhead

theorem not_numbered_iff {text : List Char} :
  (∀ n, ¬ Numbered text n) ↔ text.takeWhile isDigit = []
  := by
  simp [numbered_iff]

/-- An integer, given by its sign and its magnitude. -/
def signed (negative : Bool) (n : Nat) : Int :=
  if negative then -n else n

theorem signedValue_eq_narrow (negative : Bool) (digits : List Char) :
  signedValue negative digits = narrow (signed negative (digitsValue digits))
  := by
  have hmin : Int32.minValue.toInt = -(Int32.size / 2 : Nat) := by decide
  have hmax : Int32.maxValue.toInt = (Int32.size / 2 : Nat) - 1 := by decide
  have hsize : 0 < Int32.size / 2 := by decide
  rw [signedValue, narrow, signed, hmin, hmax]
  generalize Int32.size / 2 = half at *
  cases negative with
  | true =>
    by_cases h : digitsValue digits ≤ half
    · simp only [if_true, if_pos h]
      rw [if_neg (by omega), if_neg (by omega)]
    · simp only [if_true, if_neg h]
      rw [if_pos (by omega)]
  | false =>
    by_cases h : digitsValue digits < half
    · simp only [Bool.false_eq_true, if_false, if_pos h]
      rw [if_neg (by omega), if_neg (by omega)]
    · simp only [Bool.false_eq_true, if_false, if_neg h]
      rw [if_neg (by omega), if_pos (by omega)]

theorem unsignedLead_of_numbered {text : List Char} {n : Nat} (h : Numbered text n)
    (negative : Bool) :
  unsignedLead negative text = narrow (signed negative n)
  := by
  obtain ⟨hne, rfl⟩ := numbered_iff.mp h
  rw [unsignedLead]
  split
  case h_1 hnil => cases hne hnil
  case h_2 => apply signedValue_eq_narrow

theorem unsignedLead_of_not_numbered {text : List Char} (h : ∀ n, ¬ Numbered text n)
    (negative : Bool) :
  unsignedLead negative text = .error .invalidDigit
  := by
  rw [unsignedLead, not_numbered_iff.mp h]

/-! ### Reading the integer -/

theorem leadingInteger_of_startsWith {word : List Char} {value : Int} (h : StartsWith word value) :
  leadingInteger word = narrow value
  := by
  cases h with
  | plus h => exact unsignedLead_of_numbered h false
  | minus h => exact unsignedLead_of_numbered h true
  | plain h =>
    -- A digit is no sign.
    rw [leadingInteger.eq_def]
    split
    case h_1 => cases (numbered_iff.mp h).left rfl
    case h_2 => cases (numbered_iff.mp h).left rfl
    case h_3 => exact unsignedLead_of_numbered h false

theorem leadingInteger_of_not_startsWith {word : List Char} (h : ∀ value, ¬ StartsWith word value) :
  leadingInteger word = .error .invalidDigit
  := by
  rw [leadingInteger.eq_def]
  split
  case h_1 => exact unsignedLead_of_not_numbered (fun n hn => h n (.plus hn)) false
  case h_2 => exact unsignedLead_of_not_numbered (fun n hn => h (-n) (.minus hn)) true
  case h_3 => exact unsignedLead_of_not_numbered (fun n hn => h n (.plain hn)) false

/-- A word is read as the integer of 32 bits that it starts with. -/
theorem leadingInteger_eq_ok_iff {word : List Char} {value : Int32} :
  leadingInteger word = .ok value ↔ StartsWith word value.toInt
  := by
  constructor
  · intro hok
    by_cases h : ∃ value, StartsWith word value
    · obtain ⟨integer, h⟩ := h
      rw [leadingInteger_of_startsWith h, narrow_eq_ok_iff] at hok
      rwa [← hok]
    · rw [leadingInteger_of_not_startsWith (not_exists.mp h)] at hok
      cases hok
  · intro h
    rw [leadingInteger_of_startsWith h, narrow_eq_ok_iff]

/-- The error about a word is what is wrong with it. -/
theorem leadingInteger_eq_error_iff {word : List Char} {error : NumeralError} :
  leadingInteger word = .error error ↔ Faulty word error
  := by
  constructor
  · intro herror
    by_cases h : ∃ value, StartsWith word value
    · obtain ⟨value, h⟩ := h
      rw [leadingInteger_of_startsWith h] at herror
      cases error with
      | invalidDigit => cases narrow_ne_invalidDigit value herror
      | tooLarge => exact .tooLarge h (narrow_eq_tooLarge_iff.mp herror)
      | tooSmall => exact .tooSmall h (narrow_eq_tooSmall_iff.mp herror)
    · rw [leadingInteger_of_not_startsWith (not_exists.mp h)] at herror
      cases herror
      exact .invalidDigit (not_exists.mp h)
  · rintro (h | ⟨h, hvalue⟩ | ⟨h, hvalue⟩)
    · apply leadingInteger_of_not_startsWith h
    · rw [leadingInteger_of_startsWith h, narrow_eq_tooLarge_iff.mpr hvalue]
    · rw [leadingInteger_of_startsWith h, narrow_eq_tooSmall_iff.mpr hvalue]

end StatusBar.Margins
