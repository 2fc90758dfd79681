/-!
# Failures of reading

A `Failure` is noticed while a text is read: the reason, the text that was still to be
read, and how many bytes of it count as read already.  `Failure.fault` turns it into a
`Fault`, which names the place by line and column and which is what a message shows.
Lines count from one; a column counts the bytes of its line before the place.
-/

namespace StatusBar

/-- Why a text cannot be read. -/
inductive Reason where
  | endInValue
  | endInString
  | endInList
  | endInObject
  | expectedValue
  | expectedColon
  | expectedItemEnd
  | expectedMemberEnd
  | expectedWord
  | keyNotString
  | trailingComma
  | trailingCharacters
  | invalidNumber
  | numberOutOfRange
  | invalidEscape
  | controlCharacter
  | loneSurrogate
  | brokenSurrogatePair
  | tooDeep
  /-- A value of one kind stands where another kind is wanted. -/
  | wrongKind (found wanted : String)
  /-- A field is given twice. -/
  | duplicateField (name : String)
  deriving DecidableEq, Repr

/-- The words for a reason. -/
def Reason.message : Reason → String
  | endInValue => "EOF while parsing a value"
  | endInString => "EOF while parsing a string"
  | endInList => "EOF while parsing a list"
  | endInObject => "EOF while parsing an object"
  | expectedValue => "expected value"
  | expectedColon => "expected `:`"
  | expectedItemEnd => "expected `,` or `]`"
  | expectedMemberEnd => "expected `,` or `\x7d`"
  | expectedWord => "expected ident"
  | keyNotString => "key must be a string"
  | trailingComma => "trailing comma"
  | trailingCharacters => "trailing characters"
  | invalidNumber => "invalid number"
  | numberOutOfRange => "number out of range"
  | invalidEscape => "invalid escape"
  | controlCharacter => "control character (\\u0000-\\u001F) found while parsing a string"
  | loneSurrogate => "lone leading surrogate in hex escape"
  | brokenSurrogatePair => "unexpected end of hex escape"
  | tooDeep => "recursion limit exceeded"
  | wrongKind found wanted => "invalid type: " ++ found ++ ", expected " ++ wanted
  | duplicateField name => "duplicate field `" ++ name ++ "`"

/-- A place in a text. -/
structure Place where
  line : Nat
  column : Nat
  deriving DecidableEq, Repr

/-- The number of bytes that a text takes. -/
def byteLength (text : List Char) : Nat :=
  text.foldl (fun bytes c => bytes + c.utf8Size) 0

/-- The place `bytes` bytes further on in a text that goes on with the given characters.
A place inside a character stays on its line. -/
def Place.advance (place : Place) : (bytes : Nat) → List Char → Place
  | _, [] => place
  | 0, _ => place
  | bytes + 1, c :: rest =>
    if bytes + 1 < c.utf8Size then
      ⟨place.line, place.column + (bytes + 1)⟩
    else if c = '\n' then
      Place.advance ⟨place.line + 1, 0⟩ bytes rest
    else
      Place.advance ⟨place.line, place.column + c.utf8Size⟩ (bytes + 1 - c.utf8Size) rest

/-- A failure while a text is read: what was still to be read, and the number of its
bytes that count as read. -/
structure Failure where
  reason : Reason
  rest : List Char
  ahead : Nat
  deriving DecidableEq, Repr

/-- What a message says about a failure. -/
structure Fault where
  reason : Reason
  place : Place
  deriving DecidableEq, Repr

/-- The fault that a failure within `text` amounts to. -/
def Failure.fault (text : List Char) (failure : Failure) : Fault where
  reason := failure.reason
  place := Place.advance ⟨1, 0⟩ (byteLength text - byteLength failure.rest + failure.ahead) text

/-- The words for a fault. -/
def Fault.message (fault : Fault) : String :=
  fault.reason.message ++ " at line " ++ toString fault.place.line
    ++ " column " ++ toString fault.place.column

/-- What was read from the start of a text, and the rest of the text. -/
abbrev Parsed (α : Type) := α × List Char

namespace Reading

/-- Fail where the text goes on with `rest`. -/
def failBefore {α : Type} (reason : Reason) (rest : List Char) : Except Failure α :=
  .error ⟨reason, rest, 0⟩

/-- Fail at the first character of `rest`, which counts by its first byte. -/
def failAt {α : Type} (reason : Reason) (rest : List Char) : Except Failure α :=
  .error ⟨reason, rest, 1⟩

end Reading

end StatusBar
