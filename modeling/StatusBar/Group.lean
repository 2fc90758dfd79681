import StatusBar.Position
import StatusBar.Text.Split

/-!
# Groups

A module list names modules and groups.  A group is referred to as `group/` and its id,
and both kinds of reference may carry a style class after a `#`.  A group runs its modules
in a direction of its own or in one taken from the group or bar around it.
-/

namespace StatusBar

/-- What every reference to a group starts with. -/
def groupStart : String := "group/"

/-- Whether a reference starts like one to a group. -/
def isGroupReference (reference : String) : Bool :=
  Text.beginsWith groupStart reference

/-- A reference without its style class. -/
def bareName (reference : String) : String :=
  (Text.cut '#' reference).1

/-- A reference to a group, taken apart. -/
structure GroupReference where
  id : String
  styleClass : Option String
  deriving DecidableEq, Repr

/-- Take a reference to a group apart.  After its start there has to be something. -/
def GroupReference.ofText? (reference : String) : Option GroupReference :=
  match Text.after? groupStart reference with
  | none => none
  | some rest =>
    if rest = "" then
      none
    else
      let (id, styleClass) := Text.cut '#' rest
      some ⟨id, styleClass⟩

/-- The direction of a group's modules, possibly by that of its surroundings. -/
inductive GroupOrientation where
  | inherit
  | horizontal
  | vertical
  | orthogonal
  deriving DecidableEq, Repr, Inhabited

namespace GroupOrientation

/-- The group orientation of that name. -/
def ofName? (name : String) : Option GroupOrientation :=
  match name with
  | "inherit" => some inherit
  | "horizontal" => some horizontal
  | "vertical" => some vertical
  | "orthogonal" => some orthogonal
  | _ => none

/-- The name of a group orientation. -/
def name : GroupOrientation → String
  | inherit => "inherit"
  | horizontal => "horizontal"
  | vertical => "vertical"
  | orthogonal => "orthogonal"

/-- The direction of a group whose surroundings run in the direction `outer`. -/
def resolve (orientation : GroupOrientation) (outer : Orientation) : Orientation :=
  match orientation with
  | inherit => outer
  | horizontal => .horizontal
  | vertical => .vertical
  | orthogonal => outer.flipped

instance : Decode GroupOrientation := Decode.ofRead inherit fun doc => doc.text?.bind ofName?

end GroupOrientation

end StatusBar
