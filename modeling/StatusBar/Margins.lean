import StatusBar.Decode
import StatusBar.Text.Split

/-!
# Margins

The gaps around a bar.  A document gives them side by side, as one text of one to four
numbers in the order of style sheets, or as one number for all sides; the first of these
that it holds counts.  Each word of the text needs to start with an integer only, so that
units may follow.
-/

namespace StatusBar

/-- The gaps around a bar. -/
structure Margins where
  top : Int32
  right : Int32
  bottom : Int32
  left : Int32
  deriving DecidableEq, Repr, Inhabited

/-- Why a word is not an integer of 32 bits. -/
inductive NumeralError where
  | invalidDigit
  | tooLarge
  | tooSmall
  deriving DecidableEq, Repr

/-- The words for it. -/
def NumeralError.message : NumeralError → String
  | invalidDigit => "invalid digit found in string"
  | tooLarge => "number too large to fit in target type"
  | tooSmall => "number too small to fit in target type"

namespace Margins

/-- No gaps. -/
def zero : Margins := ⟨0, 0, 0, 0⟩

/-- The same gap on all sides. -/
def uniform (gap : Int32) : Margins := ⟨gap, gap, gap, gap⟩

/-- Whether a character is a digit from 0 to 9. -/
def isDigit (c : Char) : Bool :=
  '0' ≤ c && c ≤ '9'

/-- The number that digits write. -/
def digitsValue (digits : List Char) : Nat :=
  digits.foldl (fun n c => n * 10 + (c.toNat - '0'.toNat)) 0

/-- The integer that a sign and digits write, if it has 32 bits. -/
def signedValue (negative : Bool) (digits : List Char) : Except NumeralError Int32 :=
  let magnitude := digitsValue digits
  if negative then
    if magnitude ≤ Int32.size / 2 then .ok (Int32.ofInt (-magnitude)) else .error .tooSmall
  else
    if magnitude < Int32.size / 2 then .ok (Int32.ofInt magnitude) else .error .tooLarge

/-- The integer after the sign of a word; what follows its digits is ignored. -/
def unsignedLead (negative : Bool) (word : List Char) : Except NumeralError Int32 :=
  match word.takeWhile isDigit with
  | [] => .error .invalidDigit
  | digits => signedValue negative digits

/-- The integer that a word starts with. -/
def leadingInteger (word : List Char) : Except NumeralError Int32 :=
  match word with
  | '+' :: rest => unsignedLead false rest
  | '-' :: rest => unsignedLead true rest
  | word => unsignedLead false word

/-- Margins from one to four numbers: all sides; vertical and horizontal; top, horizontal
and bottom; or clockwise from the top. -/
def ofSides? : List Int32 → Option Margins
  | [all] => some (uniform all)
  | [vertical, horizontal] => some ⟨vertical, horizontal, vertical, horizontal⟩
  | [top, horizontal, bottom] => some ⟨top, horizontal, bottom, horizontal⟩
  | [top, right, bottom, left] => some ⟨top, right, bottom, left⟩
  | _ => none

/-- The margins that a text writes, if it has one to four words.  The first word that is
no integer is an error, however many words there are. -/
def ofText (text : String) : Except NumeralError (Option Margins) :=
  (ofSides? ·) <$> (Text.words text.toList).mapM leadingInteger

/-- The side of that name, if the document gives it as an integer. -/
def side? (doc : Document) (key : String) : Option Int32 :=
  (doc.get key).int32?

/-- The names of the sides, clockwise from the top. -/
def sideKeys : List String :=
  ["margin-top", "margin-right", "margin-bottom", "margin-left"]

/-- The margins that a document gives side by side.  A side it leaves out is zero. -/
def ofSideKeys? (doc : Document) : Option Margins :=
  if sideKeys.any fun key => (side? doc key).isSome then
    ofSides? (sideKeys.map fun key => (side? doc key).getD 0)
  else
    none

/-- The margins that a document gives, none where it gives none; an error where its text
is not understood. -/
def ofDocument (doc : Document) : Except (String × NumeralError) (Option Margins) :=
  match ofSideKeys? doc with
  | some margins => .ok (some margins)
  | none =>
    match doc.get "margin" with
    | .string text => (ofText text).mapError fun error => (text, error)
    | margin => .ok (margin.int32?.map uniform)

/-- The margins after a document is read. -/
def update (doc : Document) (margins : Margins) : Margins :=
  match ofDocument doc with
  | .ok margins? => margins?.getD margins
  | .error _ => margins

instance : Decode Margins := ⟨zero, update⟩

end Margins

end StatusBar
