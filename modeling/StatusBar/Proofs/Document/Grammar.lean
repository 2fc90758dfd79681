import StatusBar.Document.Numeral
import StatusBar.Document.Scan
import StatusBar.Proofs.Relaxed.Marked

/-!
# The grammar of values

Which texts are values, whatever they stand for.  A numeral may be of any size, and a string may
number any half of a surrogate pair.  `Derives` has one symbol for a value and one for each part
of what stands in brackets; every element has its spaces around it.
-/

namespace StatusBar.Grammar

open Scan (hexNumber? isControl isSpace letterEscape? skipSpace)
open Relaxed (IsGap)

/-- A value of letters. -/
inductive IsWord : List Char → Prop where
  | null : IsWord ['n', 'u', 'l', 'l']
  | true : IsWord ['t', 'r', 'u', 'e']
  | false : IsWord ['f', 'a', 'l', 's', 'e']

/-- A decimal digit. -/
def IsDigit (c : Char) : Prop :=
  '0' ≤ c ∧ c ≤ '9'

/-- One digit or more. -/
structure IsDigits (text : List Char) : Prop where
  ne_nil : text ≠ []
  isDigit : ∀ c ∈ text, IsDigit c

/-- The digits before the point, of which only zero itself starts with a zero. -/
inductive IsWhole : List Char → Prop where
  | zero : IsWhole ['0']
  | digits {c : Char} {text : List Char} (hc : '1' ≤ c ∧ c ≤ '9') (h : ∀ d ∈ text, IsDigit d) :
      IsWhole (c :: text)

/-- A point and digits, or nothing. -/
inductive IsFraction : List Char → Prop where
  | none : IsFraction []
  | digits {text : List Char} (h : IsDigits text) : IsFraction ('.' :: text)

/-- An exponent, or nothing. -/
inductive IsExponent : List Char → Prop where
  | none : IsExponent []
  | digits {letter : Char} {sign text : List Char} (hletter : letter = 'e' ∨ letter = 'E')
      (hsign : sign = [] ∨ sign = ['+'] ∨ sign = ['-']) (h : IsDigits text) :
      IsExponent (letter :: (sign ++ text))

/-- A numeral without a sign. -/
inductive IsNumeral : List Char → Prop where
  | parts {whole fraction exponent : List Char} (hwhole : IsWhole whole)
      (hfraction : IsFraction fraction) (hexponent : IsExponent exponent) :
      IsNumeral (whole ++ (fraction ++ exponent))

/-- What may stand between the quotes of a string. -/
inductive IsStringBody : List Char → Prop where
  | nil : IsStringBody []
  | plain {c : Char} {body : List Char} (hquote : c ≠ '"') (hbackslash : c ≠ '\\')
      (hcontrol : isControl c = false) (h : IsStringBody body) : IsStringBody (c :: body)
  | letter {letter : Char} {body : List Char} (hletter : (letterEscape? letter).isSome = true)
      (h : IsStringBody body) : IsStringBody ('\\' :: letter :: body)
  | unicode {d₁ d₂ d₃ d₄ : Char} {body : List Char}
      (hnumber : (hexNumber? d₁ d₂ d₃ d₄).isSome = true) (h : IsStringBody body) :
      IsStringBody ('\\' :: 'u' :: d₁ :: d₂ :: d₃ :: d₄ :: body)

/-- The parts of a text that the grammar tells apart. -/
inductive Part where
  | value
  /-- A value with the spaces around it. -/
  | element
  /-- Elements of an array, with commas between them. -/
  | elements
  /-- A name, a colon and an element. -/
  | member
  /-- Members of an object, with commas between them. -/
  | members
  deriving DecidableEq, Repr

/-- These characters are such a part. -/
inductive Derives : Part → List Char → Prop where
  | word {text : List Char} (h : IsWord text) : Derives .value text
  | numeral {text : List Char} (h : IsNumeral text) : Derives .value text
  | negative {text : List Char} (h : IsNumeral text) : Derives .value ('-' :: text)
  | string {body : List Char} (h : IsStringBody body) : Derives .value ('"' :: (body ++ ['"']))
  | emptyArray {gap : List Char} (hgap : IsGap gap) : Derives .value ('[' :: (gap ++ [']']))
  | array {text : List Char} (h : Derives .elements text) : Derives .value ('[' :: (text ++ [']']))
  | emptyObject {gap : List Char} (hgap : IsGap gap) :
      Derives .value ('\x7b' :: (gap ++ ['\x7d']))
  | object {text : List Char} (h : Derives .members text) :
      Derives .value ('\x7b' :: (text ++ ['\x7d']))
  | element {before text after : List Char} (hbefore : IsGap before) (h : Derives .value text)
      (hafter : IsGap after) : Derives .element (before ++ (text ++ after))
  | lastElement {text : List Char} (h : Derives .element text) : Derives .elements text
  | moreElements {text more : List Char} (h : Derives .element text)
      (hmore : Derives .elements more) : Derives .elements (text ++ ',' :: more)
  | member {before name after text : List Char} (hbefore : IsGap before)
      (hname : IsStringBody name) (hafter : IsGap after) (h : Derives .element text) :
      Derives .member (before ++ '"' :: (name ++ '"' :: (after ++ ':' :: text)))
  | lastMember {text : List Char} (h : Derives .member text) : Derives .members text
  | moreMembers {text more : List Char} (h : Derives .member text)
      (hmore : Derives .members more) : Derives .members (text ++ ',' :: more)

instance : DecidablePred IsDigit :=
  fun c => inferInstanceAs (Decidable ('0' ≤ c ∧ c ≤ '9'))

theorem IsDigit.digit?_isSome {c : Char} (h : IsDigit c) :
  (Numeral.digit? c).isSome = true
  := by
  have hdigit : '0' ≤ c ∧ c ≤ '9' := h
  rw [Numeral.digit?, if_pos hdigit]
  rfl

theorem isDigit_of_leading {c : Char} (h : '1' ≤ c ∧ c ≤ '9') :
  IsDigit c
  := ⟨Char.le_trans (show '0' ≤ '1' by decide) h.left, h.right⟩

theorem IsNumeral.exists_eq_cons {text : List Char} (h : IsNumeral text) :
  ∃ c rest, text = c :: rest ∧ IsDigit c
  := by
  obtain ⟨hwhole, -, -⟩ := h
  cases hwhole with
  | zero => exact ⟨'0', _, rfl, by decide⟩
  | digits hc => exact ⟨_, _, rfl, isDigit_of_leading hc⟩

theorem IsDigit.not_isSpace {c : Char} (h : IsDigit c) :
  isSpace c = false
  := by
  rw [Bool.eq_false_iff]
  intro hspace
  obtain rfl | rfl | rfl | rfl := Document.isSpace_iff.mp hspace
  all_goals exact absurd h (by decide)

/-- No part starts with a closing bracket. -/
theorem Derives.exists_skipSpace {part : Part} {text : List Char} (h : Derives part text)
    (rest : List Char) :
  ∃ c left, skipSpace (text ++ rest) = c :: left ∧ c ≠ ']' ∧ c ≠ '\x7d'
  := by
  induction h generalizing rest with
  | word h => cases h <;> exact ⟨_, _, rfl, by decide, by decide⟩
  | numeral h =>
    obtain ⟨c, left, rfl, hc⟩ := h.exists_eq_cons
    use c, left ++ rest, Document.skipSpace_cons_of_not_isSpace hc.not_isSpace _
    constructor
    all_goals
      rintro rfl
      exact absurd hc (by decide)
  | element hbefore _ _ ih =>
    rw [List.append_assoc, hbefore.skipSpace_append, List.append_assoc]
    apply ih
  | lastElement _ ih => exact ih rest
  | lastMember _ ih => exact ih rest
  | moreElements _ _ ih =>
    rw [List.append_assoc]
    apply ih
  | moreMembers _ _ ih =>
    rw [List.append_assoc]
    apply ih
  | member hbefore =>
    rw [List.append_assoc, hbefore.skipSpace_append]
    exact ⟨'"', _, rfl, by decide, by decide⟩
  | _ => exact ⟨_, _, rfl, by decide, by decide⟩

end StatusBar.Grammar
