import StatusBar.Document.Printer
import StatusBar.Document.Reader
import StatusBar.Document.Skip
import StatusBar.Text.Quoted

/-!
# Records

How a message of known fields is read.  An object gives fields by name, in any order: a
field that is missing keeps its value, a member that is no field is passed over, and a
field given twice is refused.  An array gives fields by place, possibly not all of them.
-/

namespace StatusBar.Sway

open Reading Scan

/-- A field of a record: its name, and how its value is read into the record. -/
structure Field (α : Type) where
  name : String
  read : α → List Char → Except Failure (Parsed α)

/-- A record: what messages call it, its fields in order, and the record before any field
is read. -/
structure Schema (α : Type) where
  title : String
  fields : List (Field α)
  initial : α

/-- What messages call a number. -/
def describeNumber : Number → String
  | .integer value => "integer `" ++ toString value ++ "`"
  | .float bits => "floating point `" ++ String.ofList (Number.float bits).chars ++ "`"

/-- Refuse a value that is not of the wanted kind.  A value without parts is read first,
and may turn out to be no value at all. -/
def refuse {α : Type} (wanted : String) (text : List Char) : Except Failure α :=
  match text with
  | 'n' :: rest => do failBefore (.wrongKind "null" wanted) (← word ['u', 'l', 'l'] rest)
  | 't' :: rest => do
    failBefore (.wrongKind "boolean `true`" wanted) (← word ['r', 'u', 'e'] rest)
  | 'f' :: rest => do
    failBefore (.wrongKind "boolean `false`" wanted) (← word ['a', 'l', 's', 'e'] rest)
  | '"' :: rest => do
    let (value, rest) ← string rest
    failBefore (.wrongKind ("string " ++ Text.Quoted.encode value) wanted) rest
  | '-' :: rest => do
    let (value, rest) ← Numeral.read true rest
    failBefore (.wrongKind (describeNumber value) wanted) rest
  | '[' :: _ => failBefore (.wrongKind "sequence" wanted) text
  | '\x7b' :: _ => failBefore (.wrongKind "map" wanted) text
  | text =>
    if Numeral.startsWithDigit text then do
      let (value, rest) ← Numeral.read false text
      failBefore (.wrongKind (describeNumber value) wanted) rest
    else
      failAt .expectedValue text

/-- Read a string. -/
def readText (text : List Char) : Except Failure (Parsed String) :=
  match skipSpace text with
  | [] => failBefore .endInValue []
  | '"' :: rest => string rest
  | rest => refuse "a string" rest

/-- Read a boolean. -/
def readBool (text : List Char) : Except Failure (Parsed Bool) :=
  match skipSpace text with
  | [] => failBefore .endInValue []
  | 't' :: rest => do return (true, ← word ['r', 'u', 'e'] rest)
  | 'f' :: rest => do return (false, ← word ['a', 'l', 's', 'e'] rest)
  | rest => refuse "a boolean" rest

/-- Read an array of strings. -/
def readTexts (text : List Char) : Except Failure (Parsed (List String)) :=
  match skipSpace text with
  | [] => failBefore .endInValue []
  | '[' :: rest => Reading.items readText rest
  | rest => refuse "a sequence" rest

/-- A field whose value is set as it is read. -/
def Field.ofRead {α β : Type} (name : String) (read : List Char → Except Failure (Parsed β))
    (set : β → α → α) : Field α where
  name := name
  read := fun record text => do
    let (value, rest) ← read text
    return (set value record, rest)

/-- The failure of a field that is given twice.  It is noticed behind the spaces after the
second name, and behind a brace that closes the record there. -/
def failTwice {α : Type} (name : String) (text : List Char) : Except Failure α :=
  match skipSpace text with
  | '\x7d' :: rest => failBefore (.duplicateField name) rest
  | rest => failBefore (.duplicateField name) rest

/-- Read a member, after the opening quote of its name, into a record of which some fields
are given. -/
def readMember {α : Type} (fields : List (Field α)) (state : α × List String)
    (text : List Char) : Except Failure (Parsed (α × List String)) := do
  let (name, rest) ← string text
  match fields.find? fun field => field.name = name with
  | none => do
    let rest ← Skip.value (← Reading.colon rest)
    return (state, rest)
  | some field =>
    if state.2.contains name then
      failTwice name rest
    else do
      let (record, rest) ← field.read state.1 (← Reading.colon rest)
      return ((record, name :: state.2), rest)

/-- Read the end of an array that has given all fields. -/
def readEnd (text : List Char) : Except Failure (List Char) :=
  match skipSpace text with
  | [] => failBefore .endInList []
  | ']' :: rest => .ok rest
  | ',' :: rest =>
    match skipSpace rest with
    | ']' :: rest => failAt .trailingComma (']' :: rest)
    | rest => failAt .trailingCharacters rest
  | rest => failAt .trailingCharacters rest

/-- Read the fields of an array in order, up to its end. -/
def readPlaces {α : Type} : (first : Bool) → List (Field α) → α → List Char →
    Except Failure (Parsed α)
  | _, [], record, text => do return (record, ← readEnd text)
  | first, field :: fields, record, text =>
    match skipSpace text with
    | [] => failBefore .endInList []
    | ']' :: rest => .ok (record, rest)
    | c :: rest =>
      if first then do
        let (record, rest) ← field.read record (c :: rest)
        readPlaces false fields record rest
      else if c = ',' then
        match skipSpace rest with
        | [] => failBefore .endInValue []
        | ']' :: rest => failAt .trailingComma (']' :: rest)
        | rest => do
          let (record, rest) ← field.read record rest
          readPlaces false fields record rest
      else
        failAt .expectedItemEnd (c :: rest)

namespace Schema

variable {α : Type} (schema : Schema α)

/-- Read a record. -/
def readValue (text : List Char) : Except Failure (Parsed α) :=
  match skipSpace text with
  | [] => failBefore .endInValue []
  | '[' :: rest => readPlaces true schema.fields schema.initial rest
  | '\x7b' :: rest => do
    let ((record, _), rest) ← Reading.members (readMember schema.fields) (schema.initial, []) rest
    return (record, rest)
  | rest => refuse ("struct " ++ schema.title) rest

/-- Read a text that holds one record and nothing else. -/
def readChars (text : List Char) : Except Failure α := do
  let (record, rest) ← schema.readValue text
  match skipSpace rest with
  | [] => return record
  | rest => failAt .trailingCharacters rest

/-- The record that a text holds. -/
def read (text : String) : Except Fault α :=
  (schema.readChars text.toList).mapError (·.fault text.toList)

end Schema

end StatusBar.Sway
