import StatusBar.Geometry
import StatusBar.Logged
import StatusBar.Mode
import StatusBar.Warning

/-!
# Surfaces

A bar is shown on a surface of the compositor and reaches it by requests alone.  What a
step of a bar does is the list of its effects: requests to the surface of an output, and
warnings.
-/

namespace StatusBar

/-- What a bar asks of its surface. -/
inductive Request where
  | layer (layer : Layer)
  /-- Whether the surface keeps its space free of windows. -/
  | exclusive (value : Bool)
  /-- Whether the pointer reaches the windows below. -/
  | passthrough (value : Bool)
  | visible (value : Bool)
  | anchors (anchors : Anchors)
  | margins (margins : Margins)
  | size (size : Size)
  | addClass (name : String)
  | removeClass (name : String)
  deriving DecidableEq, Repr

/-- The requests that engage a mode. -/
def Mode.requests (mode : Mode) : List Request :=
  mode.layer.toList.map .layer
    ++ [.exclusive mode.exclusive, .passthrough mode.passthrough, .visible mode.visible]

/-- What a step does beside its result. -/
inductive Effect where
  | request (output : String) (request : Request)
  | warning (cause : Warning)
  deriving DecidableEq, Repr

namespace Effect

/-- The request that an effect is, with its output. -/
def request? : Effect → Option (String × Request)
  | request output r => some (output, r)
  | warning _ => none

/-- The warning that an effect is. -/
def warning? : Effect → Option Warning
  | request _ _ => none
  | warning w => some w

end Effect

/-- A result and the effects of reaching it. -/
abbrev Step (α : Type) := Logged Effect α

end StatusBar
