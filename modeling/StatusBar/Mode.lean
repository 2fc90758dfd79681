import StatusBar.Decode

/-!
# Modes

A mode bundles the layer of a bar's surface with three flags.  The mode table of a bar
starts from the presets; the members of the document's `modes` are merged onto their
namesakes, and last the flags at the root of the document onto the default mode.
-/

namespace StatusBar

/-- How near to the viewer a surface lies. -/
inductive Layer where
  | bottom
  | top
  | overlay
  deriving DecidableEq, Repr, Inhabited

namespace Layer

/-- The layer of that name. -/
def ofName? (name : String) : Option Layer :=
  match name with
  | "bottom" => some bottom
  | "top" => some top
  | "overlay" => some overlay
  | _ => none

/-- The name of a layer. -/
def name : Layer → String
  | bottom => "bottom"
  | top => "top"
  | overlay => "overlay"

instance : Decode Layer := Decode.ofRead bottom fun doc => doc.text?.bind ofName?

end Layer

/-- What is engaged on a surface together.  Without a layer the surface stays on the one
it is on. -/
structure Mode where
  layer : Option Layer := none
  exclusive : Bool := false
  passthrough : Bool := false
  visible : Bool := false
  deriving DecidableEq, Repr, Inhabited

namespace Mode

/-- The layer that a node names; any name that is none of a layer's means the bottom one. -/
def layer? (doc : Document) : Option Layer :=
  doc.text?.map fun name => (Layer.ofName? name).getD .bottom

/-- The members of an object set what they name, and leave the rest. -/
def update (doc : Document) (mode : Mode) : Mode :=
  if doc.isObject then
    { layer := (layer? (doc.get "layer")).or mode.layer
      exclusive := Decode.update (doc.get "exclusive") mode.exclusive
      passthrough := Decode.update (doc.get "passthrough") mode.passthrough
      visible := Decode.update (doc.get "visible") mode.visible }
  else
    mode

instance : Decode Mode := ⟨{}, update⟩

/-- The mode that holds a bar's own flags, and that unknown modes fall back to. -/
def defaultName : String := "default"

/-- The mode of a hidden bar. -/
def invisibleName : String := "invisible"

/-- The mode of a bar that is shown on request only. -/
def hideName : String := "hide"

end Mode

/-- Modes by their names. -/
abbrev ModeTable := Table Mode

namespace ModeTable

/-- The modes that every bar has. -/
def presets : ModeTable :=
  Table.ofList
    [(Mode.defaultName, ⟨some .bottom, true, false, true⟩),
     ("dock", ⟨some .bottom, true, false, true⟩),
     (Mode.hideName, ⟨some .top, false, false, true⟩),
     (Mode.invisibleName, ⟨none, false, true, false⟩),
     ("overlay", ⟨some .top, false, true, true⟩)]

/-- The mode table of a bar's document. -/
def resolve (doc : Document) : ModeTable :=
  (Decode.update (doc.get "modes") presets).modify Mode.defaultName fun mode? =>
    Mode.update doc (mode?.getD {})

end ModeTable

end StatusBar
