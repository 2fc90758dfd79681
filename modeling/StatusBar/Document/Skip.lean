import StatusBar.Document.Numeral
import StatusBar.Document.Scan

/-!
# Skipping values

Passing over a value that nobody wants.  It is checked for its form only: numbers may be
too large, and halves of surrogate pairs may stand alone.  Brackets may nest to any depth;
those still open are kept in a list, the innermost first.
-/

namespace StatusBar.Skip

open Reading Scan

/-- Pass over an escape, after its backslash. -/
def escape (text : List Char) : Except Failure (List Char) :=
  match text with
  | [] => failBefore .endInString []
  | 'u' :: rest => Prod.snd <$> hexEscape rest
  | c :: rest => if (letterEscape? c).isSome then .ok rest else failAt .invalidEscape text

/-- Pass over a string after its opening quote, in at most `bound` characters. -/
def stringWithin : (bound : Nat) → List Char → Except Failure (List Char)
  | 0, _ => failBefore .endInString []
  | bound + 1, text =>
    match text with
    | [] => failBefore .endInString []
    | '"' :: rest => .ok rest
    | '\\' :: rest => do stringWithin bound (← escape rest)
    | c :: rest => if isControl c then failBefore .controlCharacter text else stringWithin bound rest

/-- Pass over a string after its opening quote. -/
def string (text : List Char) : Except Failure (List Char) :=
  stringWithin (text.length + 1) text

/-- A text without the digits it starts with. -/
def digits (text : List Char) : List Char :=
  (Numeral.dropDigits text).2

/-- Pass over an exponent, after its letter. -/
def exponentPart (text : List Char) : Except Failure (List Char) :=
  let unsigned :=
    match text with
    | '+' :: rest => rest
    | '-' :: rest => rest
    | text => text
  if Numeral.startsWithDigit unsigned then .ok (digits unsigned)
  else failAt .invalidNumber unsigned

/-- Pass over the digits after the point, and an exponent. -/
def fraction (text : List Char) : Except Failure (List Char) :=
  if !Numeral.startsWithDigit text then
    failAt .invalidNumber text
  else
    match digits text with
    | 'e' :: rest | 'E' :: rest => exponentPart rest
    | rest => .ok rest

/-- Pass over what follows the digits before the point. -/
def afterWhole (text : List Char) : Except Failure (List Char) :=
  match text with
  | '.' :: rest => fraction rest
  | 'e' :: rest | 'E' :: rest => exponentPart rest
  | text => .ok text

/-- Pass over a numeral after its sign. -/
def numeral (text : List Char) : Except Failure (List Char) :=
  match text with
  | '0' :: rest =>
    if Numeral.startsWithDigit rest then failAt .invalidNumber rest else afterWhole rest
  | text =>
    if Numeral.startsWithDigit text then afterWhole (digits text)
    else failAt .invalidNumber text

/-- A bracket that is still open. -/
inductive Bracket where
  | list
  | object
  deriving DecidableEq, Repr

/-- The character that closes a bracket. -/
def Bracket.closing : Bracket → Char
  | list => ']'
  | object => '\x7d'

/-- The failure at the end of the text inside a bracket. -/
def Bracket.atEnd : Bracket → Reason
  | list => .endInList
  | object => .endInObject

/-- The failure at anything that neither closes a bracket nor goes on in it. -/
def Bracket.unfinished : Bracket → Reason
  | list => .expectedItemEnd
  | object => .expectedMemberEnd

/-- Pass over a name and its colon. -/
def name (text : List Char) : Except Failure (List Char) :=
  match skipSpace text with
  | [] => failBefore .endInObject []
  | '"' :: rest => do
    let rest ← string rest
    match skipSpace rest with
    | [] => failBefore .endInObject []
    | ':' :: rest => .ok rest
    | rest => failAt .expectedColon rest
  | rest => failAt .keyNotString rest

/-- Where the next value of a bracket starts. -/
def Bracket.next (bracket : Bracket) (text : List Char) : Except Failure (List Char) :=
  match bracket with
  | list => .ok text
  | object => name text

/-- Go on after a value inside the given brackets: close them or find the next value, in
at most `bound` steps.  Gives the brackets still open, none when all is passed over. -/
def afterValue : (bound : Nat) → List Bracket → List Char →
    Except Failure (List Bracket × List Char)
  | 0, _, text => failBefore .endInValue text
  | _ + 1, [], text => .ok ([], text)
  | bound + 1, bracket :: outer, text =>
    match skipSpace text with
    | [] => failBefore bracket.atEnd []
    | c :: rest =>
      if c = ',' then do
        return (bracket :: outer, ← bracket.next rest)
      else if c = bracket.closing then
        afterValue bound outer rest
      else
        failAt bracket.unfinished (c :: rest)

/-- Go on after an opening bracket: close it at once or find its first value. -/
def afterOpening (bracket : Bracket) (outer : List Bracket) (text : List Char) :
    Except Failure (List Bracket × List Char) :=
  match skipSpace text with
  | [] => failBefore bracket.atEnd []
  | c :: rest =>
    if c = bracket.closing then
      afterValue (rest.length + outer.length + 1) outer rest
    else do
      return (bracket :: outer, ← bracket.next (c :: rest))

/-- Pass over one value or one opening bracket, and go on to where the next value starts
inside the brackets still open. -/
def step (within : List Bracket) (text : List Char) :
    Except Failure (List Bracket × List Char) :=
  let done (rest : List Char) := afterValue (rest.length + within.length + 1) within rest
  match skipSpace text with
  | [] => failBefore .endInValue []
  | 'n' :: rest => do done (← word ['u', 'l', 'l'] rest)
  | 't' :: rest => do done (← word ['r', 'u', 'e'] rest)
  | 'f' :: rest => do done (← word ['a', 'l', 's', 'e'] rest)
  | '"' :: rest => do done (← string rest)
  | '-' :: rest => do done (← numeral rest)
  | '[' :: rest => afterOpening .list within rest
  | '\x7b' :: rest => afterOpening .object within rest
  | rest =>
    if Numeral.startsWithDigit rest then do done (← numeral rest)
    else failAt .expectedValue rest

/-- Pass over values in at most `bound` steps, until no bracket is open. -/
def valueWithin : (bound : Nat) → List Bracket → List Char → Except Failure (List Char)
  | 0, _, text => failBefore .endInValue text
  | bound + 1, within, text => do
    let (still, rest) ← step within text
    if still.isEmpty then
      return rest
    else
      valueWithin bound still rest

/-- Pass over one value. -/
def value (text : List Char) : Except Failure (List Char) :=
  valueWithin (text.length + 1) [] text

end StatusBar.Skip
