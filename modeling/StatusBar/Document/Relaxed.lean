import StatusBar.Document.Reader
import StatusBar.Text.Split

/-!
# Relaxed documents

A configuration may hold comments and a comma after the last item or member.
`Relaxed.strip` takes both out: first the comments, then the commas that stand before a
closing bracket.  The ends of lines stay, also those within comments, so that a fault
names the line of the text as it was written.  Strings stay as they are.
-/

namespace StatusBar.Relaxed

/-- What a place of a text belongs to. -/
inductive Region where
  | code
  | string
  | lineComment
  /-- A block comment, and whether the character before could begin its end. -/
  | blockComment (afterStar : Bool)
  deriving DecidableEq, Repr

/-- A text without its comments, from a place in the given region on. -/
def withoutCommentsFrom : Region → List Char → List Char
  | _, [] => []
  | .code, '"' :: rest => '"' :: withoutCommentsFrom .string rest
  | .code, '/' :: '/' :: rest => withoutCommentsFrom .lineComment rest
  | .code, '/' :: '*' :: rest => withoutCommentsFrom (.blockComment false) rest
  | .code, c :: rest => c :: withoutCommentsFrom .code rest
  | .string, '\\' :: c :: rest => '\\' :: c :: withoutCommentsFrom .string rest
  | .string, '"' :: rest => '"' :: withoutCommentsFrom .code rest
  | .string, c :: rest => c :: withoutCommentsFrom .string rest
  | .lineComment, '\n' :: rest => '\n' :: withoutCommentsFrom .code rest
  | .lineComment, _ :: rest => withoutCommentsFrom .lineComment rest
  | .blockComment true, '/' :: rest => withoutCommentsFrom .code rest
  | .blockComment _, '\n' :: rest => '\n' :: withoutCommentsFrom (.blockComment false) rest
  | .blockComment _, c :: rest => withoutCommentsFrom (.blockComment (c = '*')) rest

/-- A text without its comments. -/
def withoutComments (text : List Char) : List Char :=
  withoutCommentsFrom .code text

/-- Whether a closing bracket is the first character of a text that is not blank. -/
def closesNext (text : List Char) : Bool :=
  match text.find? fun c => !Text.isBlank c with
  | some c => c = '\x7d' || c = ']'
  | none => false

/-- A text without the commas before closing brackets, from a place on that lies inside a
string or outside. -/
def withoutTrailingCommasFrom : (inString : Bool) → List Char → List Char
  | _, [] => []
  | true, '\\' :: c :: rest => '\\' :: c :: withoutTrailingCommasFrom true rest
  | true, '"' :: rest => '"' :: withoutTrailingCommasFrom false rest
  | true, c :: rest => c :: withoutTrailingCommasFrom true rest
  | false, '"' :: rest => '"' :: withoutTrailingCommasFrom true rest
  | false, ',' :: rest =>
    if closesNext rest then
      withoutTrailingCommasFrom false rest
    else
      ',' :: withoutTrailingCommasFrom false rest
  | false, c :: rest => c :: withoutTrailingCommasFrom false rest

/-- A text without the commas before closing brackets. -/
def withoutTrailingCommas (text : List Char) : List Char :=
  withoutTrailingCommasFrom false text

/-- A text without comments and trailing commas. -/
def stripChars (text : List Char) : List Char :=
  withoutTrailingCommas (withoutComments text)

/-- A text without comments and trailing commas. -/
def strip (text : String) : String :=
  String.ofList (stripChars text.toList)

/-- The document that a text with comments and trailing commas holds.  A fault counts the
columns of the text without them. -/
def read (text : String) : Except Fault Document :=
  Document.read (strip text)

end StatusBar.Relaxed
