import StatusBar.Document.Basic
import StatusBar.Document.Failure

/-!
# Numerals

How numbers are read.  The digits of a numeral go into a significand as long as it stays
below `2 ^ 64`; further digits only move the exponent or, after the point, are dropped.
A numeral without point and exponent that fits is an integer; any other is the
significand as a float, times or over a power of ten.
-/

namespace StatusBar.Numeral

open Reading

/-- The value of a decimal digit. -/
def digit? (c : Char) : Option Nat :=
  if '0' ≤ c ∧ c ≤ '9' then some (c.toNat - '0'.toNat) else none

/-- Whether a text starts with a digit. -/
def startsWithDigit : List Char → Bool
  | [] => false
  | c :: _ => (digit? c).isSome

/-- The first number that a significand cannot hold. -/
def significandLimit : Nat := UInt64.size

/-- The first number that an exponent cannot hold. -/
def exponentLimit : Nat := Int32.size / 2

/-- Append the digits of a text to `number` while it stays below `limit`.  Gives the
number, how many digits it took, and the rest. -/
def accumulate (limit number : Nat) : List Char → Nat × Nat × List Char
  | [] => (number, 0, [])
  | c :: rest =>
    match digit? c with
    | none => (number, 0, c :: rest)
    | some d =>
      if number * 10 + d < limit then
        let (total, count, rest) := accumulate limit (number * 10 + d) rest
        (total, count + 1, rest)
      else
        (number, 0, c :: rest)

/-- Drop the digits a text starts with, and count them. -/
def dropDigits : List Char → Nat × List Char
  | [] => (0, [])
  | c :: rest =>
    match digit? c with
    | none => (0, c :: rest)
    | some _ =>
      let (count, rest) := dropDigits rest
      (count + 1, rest)

/-- The largest power of ten that is used in one step. -/
def largestPower : Nat := 308

/-- A power of ten as a float. -/
def powerOfTen (n : Nat) : Float :=
  Float.ofScientific 1 false n

/-- Divide by ten `n` times over, at most `10 ^ 308` in one step; zero stays zero. -/
def scaleDown (f : Float) (n : Nat) : Float :=
  if n ≤ largestPower then f / powerOfTen n
  else if f == 0.0 then f
  else scaleDown (f / powerOfTen largestPower) (n - largestPower)
termination_by n
decreasing_by simp [largestPower] at *; omega

/-- The float `significand * 10 ^ exponent`, none if it is too large. -/
def scaled? (significand : Nat) (exponent : Int) : Option Float :=
  let f := (UInt64.ofNat significand).toFloat
  match exponent with
  | .ofNat n =>
    if n ≤ largestPower then
      let product := f * powerOfTen n
      if product.isInf then none else some product
    else if f == 0.0 then
      some f
    else
      none
  | .negSucc n => some (scaleDown f (n + 1))

/-- A float with the sign of a numeral. -/
def signed (negative : Bool) (f : Float) : Number :=
  .float (if negative then -f else f).toBits

/-- The number of a significand and an exponent, at the place where the numeral ends. -/
def float (negative : Bool) (significand : Nat) (exponent : Int) (rest : List Char) :
    Except Failure (Parsed Number) :=
  match scaled? significand exponent with
  | some f => .ok (signed negative f, rest)
  | none => failBefore .numberOutOfRange rest

/-- The number of a significand alone.  Zero with a minus sign is a float. -/
def integer (negative : Bool) (significand : Nat) : Number :=
  if !negative then
    .integer significand
  else if significand = 0 ∨ Int64.size / 2 < significand then
    signed true (UInt64.ofNat significand).toFloat
  else
    .integer (-significand)

/-- Read the digits of an exponent after its sign.  An exponent that is too large makes
the number zero, or puts it out of range. -/
def exponentDigits (negative : Bool) (significand : Nat) (exponent : Int) (below : Bool)
    (text : List Char) : Except Failure (Parsed Number) :=
  match text with
  | [] => failBefore .endInValue []
  | _ :: _ =>
    if !startsWithDigit text then
      failAt .invalidNumber text
    else
      let (power, _, rest) := accumulate exponentLimit 0 text
      if startsWithDigit rest then
        if significand ≠ 0 ∧ !below then
          failAt .numberOutOfRange rest
        else
          .ok (signed negative 0.0, (dropDigits rest).2)
      else
        float negative significand (if below then exponent - power else exponent + power) rest

/-- Read an exponent after its letter. -/
def exponentPart (negative : Bool) (significand : Nat) (exponent : Int) (text : List Char) :
    Except Failure (Parsed Number) :=
  match text with
  | '+' :: rest => exponentDigits negative significand exponent false rest
  | '-' :: rest => exponentDigits negative significand exponent true rest
  | text => exponentDigits negative significand exponent false text

/-- Go on after the digits: an exponent may follow. -/
def afterDigits (negative : Bool) (significand : Nat) (exponent : Int) (text : List Char) :
    Except Failure (Parsed Number) :=
  match text with
  | 'e' :: rest | 'E' :: rest => exponentPart negative significand exponent rest
  | text => float negative significand exponent text

/-- Read the digits after the point.  There has to be one. -/
def fraction (negative : Bool) (significand : Nat) (exponent : Int) (text : List Char) :
    Except Failure (Parsed Number) :=
  let (significand, count, rest) := accumulate significandLimit significand text
  if startsWithDigit rest then
    afterDigits negative significand (exponent - count) (dropDigits rest).2
  else if count = 0 then
    match rest with
    | [] => failBefore .endInValue []
    | rest => failAt .invalidNumber rest
  else
    afterDigits negative significand (exponent - count) rest

/-- Go on after the digits before the point. -/
def afterWhole (negative : Bool) (significand : Nat) (text : List Char) : Except Failure (Parsed Number) :=
  match text with
  | '.' :: rest => fraction negative significand 0 rest
  | 'e' :: rest | 'E' :: rest => exponentPart negative significand 0 rest
  | text => .ok (integer negative significand, text)

/-- Go on after digits before the point that do not all fit into the significand. -/
def afterLongWhole (negative : Bool) (significand dropped : Nat) (text : List Char) :
    Except Failure (Parsed Number) :=
  match text with
  | '.' :: rest => fraction negative significand dropped rest
  | text => afterDigits negative significand dropped text

/-- Read a numeral after its sign. -/
def read (negative : Bool) (text : List Char) : Except Failure (Parsed Number) :=
  match text with
  | [] => failBefore .endInValue []
  | '0' :: rest =>
    if startsWithDigit rest then
      failAt .invalidNumber rest
    else
      afterWhole negative 0 rest
  | text =>
    if !startsWithDigit text then
      failAt .invalidNumber text
    else
      let (significand, _, rest) := accumulate significandLimit 0 text
      if startsWithDigit rest then
        let (dropped, rest) := dropDigits rest
        afterLongWhole negative significand dropped rest
      else
        afterWhole negative significand rest

end StatusBar.Numeral
