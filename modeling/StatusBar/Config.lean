import StatusBar.Logged
import StatusBar.Mode
import StatusBar.Placement
import StatusBar.Warning

/-!
# Configurations

`Settings` are the typed settings of one bar, updated by documents as every decoded value
is.  A `Config` is the document of a bar, with a button code for every module that has a
second format, together with the settings that this document gives.
-/

namespace StatusBar

/-- When a press of the modifier clears what made a hidden bar urgent. -/
inductive ModifierReset where
  | press
  | release
  deriving DecidableEq, Repr, Inhabited

namespace ModifierReset

/-- The policy of that name. -/
def ofName? (name : String) : Option ModifierReset :=
  match name with
  | "press" => some press
  | "release" => some release
  | _ => none

/-- The name of a policy. -/
def name : ModifierReset → String
  | press => "press"
  | release => "release"

instance : Decode ModifierReset := Decode.ofRead press fun doc => doc.text?.bind ofName?

end ModifierReset

/-- The settings of a bar. -/
structure Settings where
  /-- The patterns of the outputs that the bar is shown on. -/
  outputs : List String
  position : Option Position
  /-- A style class of the bar's own. -/
  name : Option String
  margins : Margins
  /-- Zero leaves the size to the toolkit. -/
  width : UInt32
  height : UInt32
  spacing : Option Int32
  /-- The mode engaged at the start. -/
  mode : Option String
  modes : ModeTable
  fixedCenter : Bool
  startHidden : Bool
  reloadStyles : Bool
  ipc : Bool
  barId : Option String
  modifierReset : ModifierReset

namespace Settings

/-- The settings of a bar whose document says nothing. -/
def initial : Settings where
  outputs := []
  position := none
  name := none
  margins := .zero
  width := 0
  height := 0
  spacing := none
  mode := none
  modes := .presets
  fixedCenter := true
  startHidden := false
  reloadStyles := false
  ipc := false
  barId := none
  modifierReset := .press

/-- The output patterns that a node lists. -/
def outputPatterns? (doc : Document) : Option (List String) :=
  match doc with
  | .array _ => some doc.texts
  | .string pattern => some [pattern]
  | _ => none

/-- The position that a document names. -/
def position? (doc : Document) : Option Position :=
  (doc.get "position").text?.bind Position.ofName?

/-- The settings after a document is read.  The mode table is always the document's. -/
def update (doc : Document) (settings : Settings) : Settings where
  outputs := (outputPatterns? (doc.get "output")).getD settings.outputs
  position := (position? doc).or settings.position
  name := (doc.get "name").nonEmptyText?.or settings.name
  margins := Margins.update doc settings.margins
  width := Decode.update (doc.get "width") settings.width
  height := Decode.update (doc.get "height") settings.height
  spacing := (doc.get "spacing").int32?.or settings.spacing
  mode := (doc.get "mode").nonEmptyText?.or settings.mode
  modes := ModeTable.resolve doc
  fixedCenter := Decode.update (doc.get "fixed-center") settings.fixedCenter
  startHidden := Decode.update (doc.get "start_hidden") settings.startHidden
  reloadStyles := Decode.update (doc.get "reload_style_on_change") settings.reloadStyles
  ipc := Decode.update (doc.get "ipc") settings.ipc
  barId := (doc.get "id").nonEmptyText?.or settings.barId
  modifierReset := Decode.update (doc.get "modifier-reset") settings.modifierReset

instance : Decode Settings := ⟨initial, update⟩

/-- The complaint about a position that is not known. -/
def positionWarnings (doc : Document) : List Warning :=
  match (doc.get "position").nonEmptyText? with
  | none => []
  | some name => if (Position.ofName? name).isSome then [] else [.unknownPosition name]

/-- The complaint about margins that are not understood. -/
def marginWarnings (doc : Document) : List Warning :=
  match Margins.ofDocument doc with
  | .ok _ => []
  | .error (text, error) => [.invalidMargins text error]

/-- The complaints about a document's settings. -/
def warnings (doc : Document) : List Warning :=
  positionWarnings doc ++ marginWarnings doc

/-- The mode of a bar that is shown. -/
def initialMode (settings : Settings) : String :=
  settings.mode.getD Mode.defaultName

/-- Where the bar stands. -/
def initialPosition (settings : Settings) : Position :=
  settings.position.getD .initial

end Settings

namespace AltClick

/-- The key of a module's second format. -/
def formatKey : String := "format-alt"

/-- The key of the button that switches to it. -/
def buttonKey : String := "format-alt-click"

/-- The code of a button by its name; the left one unless another is named. -/
def buttonCode (name : String) : Int :=
  match name with
  | "click-right" => 3
  | "click-middle" => 2
  | "click-backward" => 8
  | "click-forward" => 9
  | _ => 1

/-- The button code that a node stands for.  A code stays as it is. -/
def button : Option Document → Document
  | some (.number (.integer code)) => .number (.integer (if 0 ≤ code then code else 1))
  | some (.string name) => .number (.integer (buttonCode name))
  | _ => .number (.integer 1)

/-- A module with a button code, if it has a second format. -/
def normalizeModule : Document → Document
  | .object members =>
    if (members.lookup formatKey).isSome then
      .object (Members.insert buttonKey (button (members.lookup buttonKey)) members)
    else
      .object members
  | module => module

/-- A document in which every module on the bar that has a second format has a button
code. -/
def normalize (doc : Document) : Document :=
  match doc with
  | .object members =>
    .object <|
      (Placement.placedModules doc).foldl
        (fun members name => Members.modify name normalizeModule members) members
  | doc => doc

end AltClick

/-- A bar's document and its settings. -/
structure Config where
  document : Document
  settings : Settings

namespace Config

/-- The configuration of a bar's document. -/
def ofDocument (doc : Document) : Config where
  document := AltClick.normalize doc
  settings := Decode.decode (AltClick.normalize doc)

/-- The configuration of a bar's document, with the complaints about it. -/
def load (doc : Document) : Logged Warning Config :=
  .withNotes (Settings.warnings (AltClick.normalize doc)) (ofDocument doc)

/-- What the document says about a module. -/
def moduleConfig (config : Config) (reference : String) : Document :=
  config.document.get reference

/-- The references that a section or a group lists. -/
def moduleList (config : Config) (reference : String) : List String :=
  StatusBar.moduleList config.document reference

/-- Whether a module is placed on the bar, with a style class or without. -/
def isEnabled (config : Config) (reference : String) : Bool :=
  Placement.isPlaced config.document reference

end Config

/-- The documents of the bars that a configuration's root holds: the root itself, or its
items.  What is no object is no bar. -/
def barDocuments (root : Document) : Logged Warning (List Document) :=
  match root with
  | .array items =>
    .withNotes
      ((items.zipIdx.filter fun item => !item.1.isObject).map fun item => .barNotObject item.2)
      (items.filter Document.isObject)
  | .object _ => pure [root]
  | _ => .withNotes [.rootNotBars] []

end StatusBar
