import StatusBar.CommandLine.Arguments
import StatusBar.Document.Printer
import StatusBar.Loader
import StatusBar.ModuleTree
import StatusBar.Output

/-!
# Reports

What the commands print about a configuration, for people or, with `--json`, as one
document for each line.
-/

namespace StatusBar.CommandLine

/-- The document of a number that is not negative. -/
def countDocument (n : Nat) : Document :=
  .number (.integer n)

/-- The document of an integer. -/
def intDocument (n : Int32) : Document :=
  .number (.integer n.toInt)

/-- The document of a text that may be missing. -/
def textDocument? (text : Option String) : Document :=
  (text.map Document.string).getD .null

/-- The document of a list of texts. -/
def textsDocument (texts : List String) : Document :=
  .array (texts.map .string)

/-- How a bar is referred to. -/
def barLabel (index : Nat) (bar : Config) : String :=
  match bar.settings.name with
  | some name => "#" ++ toString index ++ " (" ++ name ++ ")"
  | none => "#" ++ toString index

/-- The margins, clockwise from the top. -/
def marginSides (margins : Margins) : List Int32 :=
  [margins.top, margins.right, margins.bottom, margins.left]

/-- The summary of a bar as a document. -/
def checkDocument (bar : Config) : Document :=
  let settings := bar.settings
  .object
    [("name", textDocument? settings.name),
     ("position", .string settings.initialPosition.name),
     ("mode", .string settings.initialMode),
     ("outputs", textsDocument settings.outputs),
     ("width", countDocument settings.width.toNat),
     ("height", countDocument settings.height.toNat),
     ("spacing", (settings.spacing.map intDocument).getD .null),
     ("margins", .array ((marginSides settings.margins).map intDocument)),
     ("modes", textsDocument settings.modes.keys),
     ("start_hidden", .bool settings.startHidden)]

/-- The summary of a bar. -/
def checkLines (index : Nat) (bar : Config) : List String :=
  let settings := bar.settings
  ["bar " ++ barLabel index bar,
   "  position: " ++ settings.initialPosition.name,
   "  mode:     " ++ settings.initialMode,
   "  outputs:  "
      ++ (if settings.outputs.isEmpty then "*" else ", ".intercalate settings.outputs),
   "  size:     " ++ toString settings.width.toNat ++ "x" ++ toString settings.height.toNat,
   "  margins:  "
      ++ " ".intercalate ((marginSides settings.margins).map fun side => toString side.toInt)]
    ++ (if settings.startHidden then ["  starts hidden"] else [])

/-- The lines of `check`. -/
def checkReport (loaded : Loaded) (json : Bool) : List String :=
  if json then
    [(Document.object
      [("path", .string loaded.path.text), ("bars", .array (loaded.bars.map checkDocument))]).compact]
  else
    (loaded.path.text ++ ": " ++ toString loaded.bars.length ++ " bar(s)")
      :: loaded.bars.zipIdx.flatMap fun bar => checkLines bar.2 bar.1

/-- The module tree of a bar in the direction that it stands in, with warnings. -/
def barTree (bar : Config) : Logged Warning ModuleTree :=
  ModuleTree.resolve bar bar.settings.initialPosition.orientation

/-- The lines of `modules`. -/
def modulesReport (loaded : Loaded) (json : Bool) : Logged Warning (List String) := do
  let parts ← Logged.each
    (fun bar => do
      let tree ← barTree bar.1
      if json then
        return [(Document.object
          [("bar", countDocument bar.2), ("modules", textsDocument tree.modules)]).compact]
      else
        return ("bar " ++ barLabel bar.2 bar.1) :: tree.lines)
    loaded.bars.zipIdx
  return parts.flatten

/-- The numbers of the bars that are shown on an output, with the bars. -/
def barsOn (loaded : Loaded) (output : Output) : List (Config × Nat) :=
  loaded.bars.zipIdx.filter fun bar => output.matchesPatterns bar.1.settings.outputs

/-- The line of `outputs` for one output. -/
def outputLine (loaded : Loaded) (json : Bool) (output : Output) : String :=
  let bars := barsOn loaded output
  if json then
    (Document.object
      [("output", .string output.name), ("identifier", .string output.identifier),
       ("bars", .array (bars.map fun bar => countDocument bar.2))]).compact
  else if bars.isEmpty then
    output.text ++ ": no bar"
  else
    output.text ++ ": " ++ ", ".intercalate (bars.map fun bar => barLabel bar.2 bar.1)

/-- The lines of `outputs`. -/
def outputsReport (loaded : Loaded) (outputs : List String) (json : Bool) : List String :=
  outputs.map fun text => outputLine loaded json (.ofText text)

/-- A text with blanks after it up to a width. -/
def padded (width : Nat) (text : String) : String :=
  text ++ String.ofList (List.replicate (width - text.toList.length) ' ')

/-- One line of a mode table. -/
def modeLine (name layer exclusive passthrough visible : String) : String :=
  "  " ++ " ".intercalate
    [padded 12 name, padded 8 layer, padded 10 exclusive, padded 12 passthrough, padded 8 visible]

/-- The document of a mode. -/
def modeDocument (mode : Mode) : Document :=
  .object
    [("layer", textDocument? (mode.layer.map Layer.name)),
     ("exclusive", .bool mode.exclusive),
     ("passthrough", .bool mode.passthrough),
     ("visible", .bool mode.visible)]

/-- The lines of `modes` for one bar. -/
def modesLines (json : Bool) (index : Nat) (bar : Config) : List String :=
  let modes := bar.settings.modes
  if json then
    [(Document.object
      [("bar", countDocument index),
       ("modes", .object (modes.entries.map fun mode => (mode.1, modeDocument mode.2)))]).compact]
  else
    ("bar " ++ barLabel index bar)
      :: modeLine "mode" "layer" "exclusive" "passthrough" "visible"
      :: modes.entries.map fun mode =>
          modeLine mode.1 ((mode.2.layer.map Layer.name).getD "-") (toString mode.2.exclusive)
            (toString mode.2.passthrough) (toString mode.2.visible)

/-- The lines of `modes`. -/
def modesReport (loaded : Loaded) (json : Bool) : List String :=
  loaded.bars.zipIdx.flatMap fun bar => modesLines json bar.2 bar.1

/-- The lines of a command, and what is noted on the way. -/
def report (options : Options) (command : Command) (loaded : Loaded) :
    Logged Notice (List String) :=
  match command with
  | .check => pure (checkReport loaded options.json)
  | .modules => (modulesReport loaded options.json).mapLog Notice.warning
  | .outputs =>
    if options.outputs.isEmpty then
      .withNotes [.noOutputGiven] []
    else
      pure (outputsReport loaded options.outputs options.json)
  | .modes => pure (modesReport loaded options.json)

end StatusBar.CommandLine
