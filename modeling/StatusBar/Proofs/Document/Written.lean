import StatusBar.Document.Printer
import StatusBar.Proofs.Document.Yields

/-!
# Strings as they may be written

A character of a string may stand for itself or be written by an escape: one of a letter, one
of four hexadecimal digits, or two of these for a character that they cannot number.  Whichever
are used, the string is read back.
-/

namespace StatusBar

namespace Document

open Scan

/-- These characters write a character of a string, between the quotes. -/
inductive WritesChar : Char → List Char → Prop where
  | plain {c : Char} (hquote : c ≠ '"') (hbackslash : c ≠ '\\') (hcontrol : isControl c = false) :
      WritesChar c [c]
  | letter {letter c : Char} (h : letterEscape? letter = some c) : WritesChar c ['\\', letter]
  | unicode {c d₁ d₂ d₃ d₄ : Char} (h : hexNumber? d₁ d₂ d₃ d₄ = some c.toNat) :
      WritesChar c ['\\', 'u', d₁, d₂, d₃, d₄]
  /-- A surrogate pair. -/
  | pair {c d₁ d₂ d₃ d₄ e₁ e₂ e₃ e₄ : Char} (hlarge : 0x10000 ≤ c.toNat)
      (hleading : hexNumber? d₁ d₂ d₃ d₄ = some (0xD800 + (c.toNat - 0x10000) / 0x400))
      (htrailing : hexNumber? e₁ e₂ e₃ e₄ = some (0xDC00 + (c.toNat - 0x10000) % 0x400)) :
      WritesChar c ['\\', 'u', d₁, d₂, d₃, d₄, '\\', 'u', e₁, e₂, e₃, e₄]

theorem WritesChar.length_pos {c : Char} {part : List Char} (h : WritesChar c part) :
  0 < part.length
  := by
  cases h <;> exact Nat.succ_pos _

/-- These characters write the given ones, between the quotes of a string. -/
inductive WritesChars : (chars text : List Char) → Prop where
  | nil : WritesChars [] []
  | cons {c : Char} {chars part text : List Char} (hc : WritesChar c part)
      (h : WritesChars chars text) : WritesChars (c :: chars) (part ++ text)

/-- These characters write a string, with its quotes. -/
def WritesString (value : String) (text : List Char) : Prop :=
  ∃ body, WritesChars value.toList body ∧ text = '"' :: (body ++ ['"'])

end Document

namespace Scan

open Document (WritesChar WritesChars WritesString)
open Reading (bind_eq_ok)

/-- A character is no half of a surrogate pair. -/
theorem toNat_range (c : Char) :
  c.toNat < 0xD800 ∨ 0xDFFF < c.toNat ∧ c.toNat < 0x110000
  := c.valid

theorem unicodeEscape_of_number {c d₁ d₂ d₃ d₄ : Char}
    (h : hexNumber? d₁ d₂ d₃ d₄ = some c.toNat) (rest : List Char) :
  unicodeEscape (d₁ :: d₂ :: d₃ :: d₄ :: rest) = .ok (c, rest)
  := by
  have hrange := toNat_range c
  have htrailing : isTrailingSurrogate c.toNat = false := by
    simp only [isTrailingSurrogate, Bool.and_eq_false_imp, decide_eq_true_eq,
      decide_eq_false_iff_not, Nat.not_lt]
    omega
  have hleading : isLeadingSurrogate c.toNat = false := by
    simp only [isLeadingSurrogate, Bool.and_eq_false_imp, decide_eq_true_eq,
      decide_eq_false_iff_not, Nat.not_lt]
    omega
  apply bind_eq_ok.mpr
  use (c.toNat, rest), by rw [hexEscape, h]
  simp [htrailing, hleading]

theorem unicodeEscape_of_pair {c d₁ d₂ d₃ d₄ e₁ e₂ e₃ e₄ : Char} (hlarge : 0x10000 ≤ c.toNat)
    (hleading : hexNumber? d₁ d₂ d₃ d₄ = some (0xD800 + (c.toNat - 0x10000) / 0x400))
    (htrailing : hexNumber? e₁ e₂ e₃ e₄ = some (0xDC00 + (c.toNat - 0x10000) % 0x400))
    (rest : List Char) :
  unicodeEscape (d₁ :: d₂ :: d₃ :: d₄ :: '\\' :: 'u' :: e₁ :: e₂ :: e₃ :: e₄ :: rest)
    = .ok (c, rest)
  := by
  have hrange := toNat_range c
  generalize hfirst : 0xD800 + (c.toNat - 0x10000) / 0x400 = first at hleading
  generalize hsecond : 0xDC00 + (c.toNat - 0x10000) % 0x400 = second at htrailing
  have hfirst' : isTrailingSurrogate first = false ∧ isLeadingSurrogate first = true := by
    simp only [isTrailingSurrogate, isLeadingSurrogate, Bool.and_eq_false_imp, Bool.and_eq_true,
      decide_eq_true_eq, decide_eq_false_iff_not, Nat.not_lt]
    omega
  have hsecond' : isTrailingSurrogate second = true := by
    simp only [isTrailingSurrogate, Bool.and_eq_true, decide_eq_true_eq]
    omega
  have hpair : surrogatePair first second = c := by
    have hsum : 0x10000 + (first - 0xD800) * 0x400 + (second - 0xDC00) = c.toNat := by omega
    rw [surrogatePair, hsum, Char.ofNat_toNat]
  apply bind_eq_ok.mpr
  use (first, '\\' :: 'u' :: e₁ :: e₂ :: e₃ :: e₄ :: rest), by rw [hexEscape, hleading]
  simp only [hfirst', trailingEscape]
  apply bind_eq_ok.mpr
  use (second, rest), by rw [hexEscape, htrailing]
  simp only [hsecond', hpair, if_true]

theorem escape_of_letter {letter c : Char} (h : letterEscape? letter = some c)
    (rest : List Char) :
  escape (letter :: rest) = .ok (c, rest)
  := by
  unfold escape
  split
  case h_1 heq => cases heq
  case h_2 heq =>
    cases heq
    cases h
  case h_3 heq =>
    cases heq
    rw [h]

/-- A character is read back, however it is written. -/
theorem stringWithin_of_char {c : Char} {part : List Char} (h : WritesChar c part) (bound : Nat)
    (rest : List Char) :
  stringWithin (bound + 1) (part ++ rest) = (do
    let (chars, rest) ← stringWithin bound rest
    return (c :: chars, rest))
  := by
  cases h with
  | plain hquote hbackslash hcontrol =>
    rw [List.singleton_append, stringWithin]
    · simp only [hcontrol]
      rfl
    · exact hquote
    · exact hbackslash
  | letter h =>
    rw [List.cons_append, List.singleton_append, stringWithin.eq_def]
    simp only [escape_of_letter h]
    rfl
  | unicode h =>
    rw [List.cons_append, stringWithin.eq_def]
    simp only [List.cons_append, List.nil_append, escape, unicodeEscape_of_number h]
    rfl
  | pair hlarge hleading htrailing =>
    rw [List.cons_append, stringWithin.eq_def]
    simp only [List.cons_append, List.nil_append, escape,
      unicodeEscape_of_pair hlarge hleading htrailing]
    rfl

theorem stringWithin_of_chars {chars body : List Char} (h : WritesChars chars body)
    {bound : Nat} (hbound : body.length < bound) (rest : List Char) :
  stringWithin bound (body ++ '"' :: rest) = .ok (chars, rest)
  := by
  induction h generalizing bound with
  | nil =>
    obtain ⟨bound, rfl⟩ := Nat.exists_eq_add_of_lt hbound
    simp [stringWithin]
  | cons hc _ ih =>
    have hpart := hc.length_pos
    rw [List.length_append] at hbound
    obtain ⟨bound, rfl⟩ := Nat.exists_eq_add_of_lt hbound
    rw [List.append_assoc, stringWithin_of_char hc, ih (by omega)]
    rfl

/-- A string is read back, however it is written. -/
theorem string_of_writes {value : String} {body : List Char} (h : WritesChars value.toList body)
    (rest : List Char) :
  string (body ++ '"' :: rest) = .ok (value, rest)
  := by
  have hbound : body.length < (body ++ '"' :: rest).length + 1 := by
    rw [List.length_append]
    omega
  apply bind_eq_ok.mpr
  use (value.toList, rest), stringWithin_of_chars h hbound rest
  simp [pure, Except.pure]

theorem hexDigit?_digitChar {n : Nat} (h : n < 16) :
  hexDigit? (Nat.digitChar n) = some n
  := by
  revert n
  decide

/-- A control character is numbered by two digits. -/
theorem hexNumber?_of_control {n : Nat} (h : n < 0x20) :
  hexNumber? '0' '0' (Nat.digitChar (n / 16)) (Nat.digitChar (n % 16)) = some n
  := by
  have hzero : hexDigit? '0' = some 0 := rfl
  rw [hexNumber?, hzero, hexDigit?_digitChar (by omega), hexDigit?_digitChar (by omega)]
  change some (((0 * 16 + 0) * 16 + n / 16) * 16 + n % 16) = some n
  rw [Option.some_inj]
  omega

end Scan

namespace Document

open Scan (isControl hexNumber?_of_control)

theorem writesChar_encodeChar (c : Char) :
  WritesChar c (encodeChar c)
  := by
  unfold encodeChar
  split
  case h_8 hquote hbackslash _ _ _ _ _ =>
    split
    case isTrue hcontrol => exact .unicode (hexNumber?_of_control hcontrol)
    case isFalse hcontrol => exact .plain hquote hbackslash (by simpa [isControl] using hcontrol)
  all_goals exact .letter rfl

theorem writesString_stringChars (value : String) :
  WritesString value (stringChars value)
  := by
  use value.toList.flatMap encodeChar
  constructor
  · induction value.toList with
    | nil => exact .nil
    | cons c chars ih => exact .cons (writesChar_encodeChar c) ih
  · rfl

end Document

end StatusBar
