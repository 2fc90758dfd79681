import StatusBar.Margins
import StatusBar.Position

/-!
# Geometry

The edges that a bar's surface is attached to, and where the bar comes to lie on its
monitor.  The coordinates are exact integers of any size, clamped to 32 bits at the end.
-/

namespace StatusBar

/-- A monitor's place and size. -/
structure Rect where
  x : Int32
  y : Int32
  width : Int32
  height : Int32
  deriving DecidableEq, Repr, Inhabited

/-- A width and a height; zero leaves the choice to the toolkit. -/
structure Size where
  width : UInt32
  height : UInt32
  deriving DecidableEq, Repr, Inhabited

/-- A point of the compositor's plane. -/
structure Point where
  x : Int32
  y : Int32
  deriving DecidableEq, Repr, Inhabited

/-- The edges that a surface is attached to. -/
structure Anchors where
  left : Bool
  right : Bool
  top : Bool
  bottom : Bool
  deriving DecidableEq, Repr, Inhabited

namespace Anchors

/-- The edges of a bar: all but the one across from it, and neither end when its length is
fixed. -/
def ofPosition (position : Position) (size : Size) : Anchors :=
  let freeEnds := size.width ≤ 1
  let freeSides := size.height ≤ 1
  match position with
  | .left => ⟨true, false, freeSides, freeSides⟩
  | .right => ⟨false, true, freeSides, freeSides⟩
  | .top => ⟨freeEnds, freeEnds, true, false⟩
  | .bottom => ⟨freeEnds, freeEnds, false, true⟩

/-- The names of the edges. -/
def names (anchors : Anchors) : List String :=
  [(anchors.left, Position.left), (anchors.right, Position.right), (anchors.top, Position.top),
    (anchors.bottom, Position.bottom)].filterMap
      fun edge => if edge.1 then some edge.2.name else none

/-- The names of the edges with blanks between. -/
def text (anchors : Anchors) : String :=
  " ".intercalate anchors.names

end Anchors

/-- Where a bar starts along its length, on a monitor of a given extent: after its first
margin when bar and margins fill the monitor, else so that it is centred. -/
def startAlong (extent length first last : Int) : Int :=
  if extent ≤ length + first + last then first else (extent - length).tdiv 2

/-- A coordinate clamped to 32 bits. -/
def clamp (value : Int) : Int32 :=
  Int32.ofInt (max Int32.minValue.toInt (min value Int32.maxValue.toInt))

/-- The top left corner of a bar on its monitor, before clamping. -/
def exactOffset (position : Position) (margins : Margins) (monitor : Rect) (size : Size) :
    Int × Int :=
  let width : Int := size.width.toNat
  let height : Int := size.height.toNat
  let alongX :=
    startAlong monitor.width.toInt width margins.left.toInt margins.right.toInt
  let alongY :=
    startAlong monitor.height.toInt height margins.top.toInt margins.bottom.toInt
  let corner : Int × Int :=
    match position with
    | .top => (alongX, margins.top.toInt)
    | .bottom => (alongX, monitor.height.toInt - height - margins.bottom.toInt)
    | .left => (margins.left.toInt, alongY)
    | .right => (monitor.width.toInt - width - margins.right.toInt, alongY)
  (monitor.x.toInt + corner.1, monitor.y.toInt + corner.2)

/-- The top left corner of a bar on its monitor. -/
def offset (position : Position) (margins : Margins) (monitor : Rect) (size : Size) : Point :=
  let corner := exactOffset position margins monitor size
  ⟨clamp corner.1, clamp corner.2⟩

end StatusBar
