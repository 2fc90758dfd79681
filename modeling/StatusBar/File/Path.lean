import StatusBar.Text.Split

/-!
# Paths

A path is kept as it is written.  Its components leave out what does not matter: repeated
separators, and every `.` that does not stand at the start; two spellings with the same
components are the `same` path.
-/

namespace StatusBar

/-- A path, as written. -/
structure Path where
  text : String
  deriving DecidableEq, Repr, Inhabited

namespace Path

/-- Whether a character separates components. -/
def isSeparator (c : Char) : Bool := c = '/'

/-- Whether a path starts at the root. -/
def isAbsolute (path : Path) : Bool :=
  Text.beginsWith "/" path.text

/-- Whether a path holds the character that ends a name, so that nothing can lie there. -/
def hasNul (path : Path) : Bool :=
  path.text.toList.contains '\x00'

/-- The path `path` as seen from `base`. -/
def join (base path : Path) : Path :=
  if path.isAbsolute then
    path
  else if base.text = "" ∨ base.text.toList.getLast? = some '/' then
    ⟨base.text ++ path.text⟩
  else
    ⟨base.text ++ "/" ++ path.text⟩

/-- The start of a path that no component is taken from: the root, or a leading `.`. -/
def lead (text : List Char) : List Char :=
  match text with
  | '/' :: _ => ['/']
  | ['.'] => ['.']
  | '.' :: '/' :: _ => ['.']
  | _ => []

/-- The pieces of a path after its lead, between separators. -/
def bodyPieces (text : List Char) : List (List Char) :=
  Text.pieces isSeparator (text.drop (lead text).length)

/-- Whether a piece is no component. -/
def isIdle (piece : List Char) : Bool :=
  piece = [] || piece = ['.']

/-- Pieces without the idle ones at their end. -/
def trimEnd (pieces : List (List Char)) : List (List Char) :=
  (pieces.reverse.dropWhile isIdle).reverse

/-- What a path names, step by step: its lead and its components. -/
def components (path : Path) : List (List Char) :=
  (match lead path.text.toList with
   | [] => []
   | start => [start])
    ++ (bodyPieces path.text.toList).filter fun piece => !isIdle piece

/-- Whether two paths differ in their spelling only. -/
def same (path path' : Path) : Bool :=
  path.components == path'.components

/-- The path of the directory that holds a path, as far as its text tells. -/
def parent? (path : Path) : Option Path :=
  let text := path.text.toList
  match trimEnd (bodyPieces text) with
  | [] => if lead text = ['.'] then some ⟨""⟩ else none
  | pieces =>
    some ⟨String.ofList (lead text ++ ['/'].intercalate (trimEnd pieces.dropLast))⟩

example : parent? ⟨"a/./b//c/"⟩ = some ⟨"a/./b"⟩ := by decide

example : parent? ⟨"./x"⟩ = some ⟨"."⟩ ∧ parent? ⟨"x"⟩ = some ⟨""⟩ ∧ parent? ⟨"/"⟩ = none := by
  decide

end Path

end StatusBar
