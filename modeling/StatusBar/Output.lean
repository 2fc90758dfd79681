import StatusBar.Text.Split

/-!
# Outputs

The outputs that a bar can be shown on, and the patterns that choose among them.  The first
pattern that speaks of an output decides: `!x` against it, `*` for every output, a name or
an identifier for its own.  No pattern at all chooses every output.
-/

namespace StatusBar

/-- An output of the compositor. -/
structure Output where
  name : String
  /-- A stable description, possibly empty. -/
  identifier : String
  deriving DecidableEq, Repr, Inhabited

namespace Output

/-- An output written as its name, or as name and identifier with a colon between. -/
def ofText (text : String) : Output :=
  let (name, identifier?) := Text.cut ':' text
  ⟨name, identifier?.getD ""⟩

/-- An output as messages show it. -/
def text (output : Output) : String :=
  if output.identifier = "" then output.name
  else output.name ++ " (" ++ output.identifier ++ ")"

/-- Whether a pattern is the name or the identifier of an output. -/
def isNamed (output : Output) (pattern : String) : Bool :=
  pattern = output.name || (output.identifier != "" && pattern = output.identifier)

/-- What a single pattern says about an output, if anything. -/
def verdict? (output : Output) (pattern : String) : Option Bool :=
  match Text.after? "!" pattern with
  | some excluded => if output.isNamed excluded then some false else none
  | none => if Text.beginsWith "*" pattern || output.isNamed pattern then some true else none

/-- Whether a list of patterns chooses an output. -/
def matchesPatterns (output : Output) (patterns : List String) : Bool :=
  patterns.isEmpty || (patterns.findSome? output.verdict?).getD false

end Output

end StatusBar
