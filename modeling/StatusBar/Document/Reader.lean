import StatusBar.Document.Numeral
import StatusBar.Document.Scan

/-!
# Reading documents

`Document.read` reads a whole text as one document and refuses everything that is not
strictly one.  `Reading.items` and `Reading.members` read what stands between brackets and
are shared by all that is read piece by piece.  An object that names a member twice keeps the later value
in the place of the earlier.
-/

namespace StatusBar

open Reading Scan

/-- Read the rest of an array after an item, in at most `bound` items. -/
def Reading.itemsWithin {α : Type} (item : List Char → Except Failure (Parsed α)) :
    (bound : Nat) → List Char → Except Failure (Parsed (List α))
  | 0, _ => failBefore .endInList []
  | bound + 1, text =>
    match skipSpace text with
    | [] => failBefore .endInList []
    | ']' :: rest => .ok ([], rest)
    | ',' :: rest =>
      match skipSpace rest with
      | [] => failBefore .endInValue []
      | ']' :: rest => failAt .trailingComma (']' :: rest)
      | rest => do
        let (first, rest) ← item rest
        let (more, rest) ← itemsWithin item bound rest
        return (first :: more, rest)
    | rest => failAt .expectedItemEnd rest

/-- Read the items of an array after its opening bracket, and the closing bracket. -/
def Reading.items {α : Type} (item : List Char → Except Failure (Parsed α)) (text : List Char) :
    Except Failure (Parsed (List α)) :=
  match skipSpace text with
  | [] => failBefore .endInList []
  | ']' :: rest => .ok ([], rest)
  | rest => do
    let (first, rest) ← item rest
    let (more, rest) ← itemsWithin item (rest.length + 1) rest
    return (first :: more, rest)

/-- Read the colon between a name and its value. -/
def Reading.colon (text : List Char) : Except Failure (List Char) :=
  match skipSpace text with
  | [] => failBefore .endInObject []
  | ':' :: rest => .ok rest
  | rest => failAt .expectedColon rest

/-- Read the rest of an object after a member, in at most `bound` members.  `entry` reads a
member after the opening quote of its name and brings what was read so far up to date. -/
def Reading.membersWithin {α : Type} (entry : α → List Char → Except Failure (Parsed α)) :
    (bound : Nat) → α → List Char → Except Failure (Parsed α)
  | 0, _, _ => failBefore .endInObject []
  | bound + 1, state, text =>
    match skipSpace text with
    | [] => failBefore .endInObject []
    | '\x7d' :: rest => .ok (state, rest)
    | ',' :: rest =>
      match skipSpace rest with
      | [] => failBefore .endInValue []
      | '\x7d' :: rest => failAt .trailingComma ('\x7d' :: rest)
      | '"' :: rest => do
        let (state, rest) ← entry state rest
        membersWithin entry bound state rest
      | rest => failAt .keyNotString rest
    | rest => failAt .expectedMemberEnd rest

/-- Read the members of an object after its opening brace, and the closing brace. -/
def Reading.members {α : Type} (entry : α → List Char → Except Failure (Parsed α))
    (state : α) (text : List Char) : Except Failure (Parsed α) :=
  match skipSpace text with
  | [] => failBefore .endInObject []
  | '\x7d' :: rest => .ok (state, rest)
  | '"' :: rest => do
    let (state, rest) ← entry state rest
    membersWithin entry (rest.length + 1) state rest
  | rest => failAt .keyNotString rest

/-- Read a member, after the opening quote of its name, into the members so far. -/
def Members.read (value : List Char → Except Failure (Parsed Document)) (members : Members)
    (text : List Char) : Except Failure (Parsed Members) := do
  let (name, rest) ← string text
  let rest ← Reading.colon rest
  let (value, rest) ← value rest
  return (members.insert name value, rest)

namespace Document

/-- How deep brackets may nest. -/
def depthLimit : Nat := 127

/-- Read one value with at most `depth` brackets around its innermost part. -/
def value (depth : Nat) (text : List Char) : Except Failure (Parsed Document) :=
  match skipSpace text with
  | [] => failBefore .endInValue []
  | 'n' :: rest => do return (.null, ← word ['u', 'l', 'l'] rest)
  | 't' :: rest => do return (.bool true, ← word ['r', 'u', 'e'] rest)
  | 'f' :: rest => do return (.bool false, ← word ['a', 'l', 's', 'e'] rest)
  | '"' :: rest => do
    let (text, rest) ← Scan.string rest
    return (.string text, rest)
  | '-' :: rest => do
    let (n, rest) ← Numeral.read true rest
    return (.number n, rest)
  | '[' :: rest =>
    match depth with
    | 0 => failAt .tooDeep ('[' :: rest)
    | depth + 1 => do
      let (items, rest) ← Reading.items (value depth) rest
      return (.array items, rest)
  | '\x7b' :: rest =>
    match depth with
    | 0 => failAt .tooDeep ('\x7b' :: rest)
    | depth + 1 => do
      let (members, rest) ← Reading.members (Members.read (value depth)) [] rest
      return (.object members, rest)
  | rest =>
    if Numeral.startsWithDigit rest then do
      let (n, rest) ← Numeral.read false rest
      return (.number n, rest)
    else
      failAt .expectedValue rest

/-- Read a text that holds one document and nothing else. -/
def readChars (text : List Char) : Except Failure Document := do
  let (document, rest) ← value depthLimit text
  match skipSpace rest with
  | [] => return document
  | rest => failAt .trailingCharacters rest

/-- The document that a text holds. -/
def read (text : String) : Except Fault Document :=
  (readChars text.toList).mapError (·.fault text.toList)

end Document

end StatusBar
