import StatusBar.Document.Failure

/-!
# Spaces, words and strings

The parts of a document's text below its values: the spaces between tokens, the letters
of `null`, `true` and `false`, and strings with their escapes.  Every loop over the text
has a bound that the length of the text meets.
-/

namespace StatusBar.Scan

open Reading

/-- The spaces allowed between tokens. -/
def isSpace (c : Char) : Bool :=
  c = ' ' || c = '\t' || c = '\n' || c = '\r'

/-- A text without the spaces it starts with. -/
def skipSpace (text : List Char) : List Char :=
  text.dropWhile isSpace

/-- Read these letters. -/
def word : (letters : List Char) → List Char → Except Failure (List Char)
  | [], text => .ok text
  | _ :: _, [] => failBefore .endInValue []
  | c :: letters, d :: rest =>
    if c = d then word letters rest else failAt .expectedWord (d :: rest)

/-- The value of a hexadecimal digit. -/
def hexDigit? (c : Char) : Option Nat :=
  if '0' ≤ c ∧ c ≤ '9' then some (c.toNat - '0'.toNat)
  else if 'a' ≤ c ∧ c ≤ 'f' then some (c.toNat - 'a'.toNat + 10)
  else if 'A' ≤ c ∧ c ≤ 'F' then some (c.toNat - 'A'.toNat + 10)
  else none

/-- The number that four hexadecimal digits write. -/
def hexNumber? (a b c d : Char) : Option Nat := do
  let a ← hexDigit? a
  let b ← hexDigit? b
  let c ← hexDigit? c
  let d ← hexDigit? d
  return ((a * 16 + b) * 16 + c) * 16 + d

/-- Read the four hexadecimal digits of an escape.  The next four bytes count as read
even when they are no such digits. -/
def hexEscape (text : List Char) : Except Failure (Parsed Nat) :=
  match text with
  | a :: b :: c :: d :: rest =>
    match hexNumber? a b c d with
    | some n => .ok (n, rest)
    | none => .error ⟨.invalidEscape, text, 4⟩
  | text =>
    if byteLength text < 4 then
      failBefore .endInString []
    else
      .error ⟨.invalidEscape, text, 4⟩

/-- Whether a number is the first half of a surrogate pair. -/
def isLeadingSurrogate (n : Nat) : Bool :=
  0xD800 ≤ n && n < 0xDC00

/-- Whether a number is the second half of a surrogate pair. -/
def isTrailingSurrogate (n : Nat) : Bool :=
  0xDC00 ≤ n && n < 0xE000

/-- The character of a surrogate pair. -/
def surrogatePair (leading trailing : Nat) : Char :=
  Char.ofNat (0x10000 + (leading - 0xD800) * 0x400 + (trailing - 0xDC00))

/-- Read the second escape of a surrogate pair and give the pair's character. -/
def trailingEscape (leading : Nat) (text : List Char) : Except Failure (Parsed Char) :=
  match text with
  | [] => failBefore .endInString []
  | ['\\'] => failBefore .endInString []
  | '\\' :: 'u' :: rest => do
    let (trailing, rest) ← hexEscape rest
    if isTrailingSurrogate trailing then
      .ok (surrogatePair leading trailing, rest)
    else
      failBefore .loneSurrogate rest
  | '\\' :: rest => failAt .brokenSurrogatePair rest
  | rest => failAt .brokenSurrogatePair rest

/-- Read the number of a `u` escape, or of two of them that form a surrogate pair. -/
def unicodeEscape (text : List Char) : Except Failure (Parsed Char) := do
  let (n, rest) ← hexEscape text
  if isTrailingSurrogate n then
    failBefore .loneSurrogate rest
  else if isLeadingSurrogate n then
    trailingEscape n rest
  else
    .ok (Char.ofNat n, rest)

/-- The character that an escape of one letter stands for. -/
def letterEscape? (c : Char) : Option Char :=
  match c with
  | '"' => some '"'
  | '\\' => some '\\'
  | '/' => some '/'
  | 'b' => some '\x08'
  | 'f' => some '\x0c'
  | 'n' => some '\n'
  | 'r' => some '\r'
  | 't' => some '\t'
  | _ => none

/-- Read an escape, after its backslash. -/
def escape (text : List Char) : Except Failure (Parsed Char) :=
  match text with
  | [] => failBefore .endInString []
  | 'u' :: rest => unicodeEscape rest
  | c :: rest =>
    match letterEscape? c with
    | some d => .ok (d, rest)
    | none => failAt .invalidEscape text

/-- Whether a character may not stand in a string unescaped. -/
def isControl (c : Char) : Bool :=
  c.toNat < 0x20

/-- Read a string after its opening quote, in at most `bound` characters. -/
def stringWithin : (bound : Nat) → List Char → Except Failure (Parsed (List Char))
  | 0, _ => failBefore .endInString []
  | bound + 1, text =>
    match text with
    | [] => failBefore .endInString []
    | '"' :: rest => .ok ([], rest)
    | '\\' :: rest => do
      let (c, rest) ← escape rest
      let (chars, rest) ← stringWithin bound rest
      return (c :: chars, rest)
    | c :: rest =>
      if isControl c then
        failAt .controlCharacter text
      else do
        let (chars, rest) ← stringWithin bound rest
        return (c :: chars, rest)

/-- Read a string after its opening quote. -/
def string (text : List Char) : Except Failure (Parsed String) := do
  let (chars, rest) ← stringWithin (text.length + 1) text
  return (String.ofList chars, rest)

end StatusBar.Scan
