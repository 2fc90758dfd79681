import StatusBar.Config
import StatusBar.Output
import StatusBar.Surface

/-!
# Bars

The bar on one output: where it stands, which mode it is in, how large it is, and the
requests by which its surface follows.
-/

namespace StatusBar

/-- The bar on one output. -/
structure Bar where
  output : Output
  monitor : Rect
  position : Position
  /-- The direction that the bar was laid out for. -/
  orientation : Orientation
  size : Size
  /-- The mode that is engaged. -/
  mode : String
  /-- The top left corner, as far as known. -/
  offset : Point
  deriving DecidableEq, Repr

/-- The mode of a table that a name engages: an unknown name engages the default. -/
def ModeTable.engaged (modes : ModeTable) (name : String) : String :=
  if modes.contains name then name else Mode.defaultName

/-- The name that is engaged is known if any can be. -/
theorem ModeTable.contains_engaged (modes : ModeTable) (name : String)
    (h : modes.contains Mode.defaultName) :
  modes.contains (modes.engaged name)
  := by
  rw [engaged]
  split
  case isTrue hname => exact hname
  case isFalse => exact h

/-- The flags that a name engages. -/
def ModeTable.flags (modes : ModeTable) (name : String) : Mode :=
  (modes.get? (modes.engaged name)).getD {}

/-- The fixed size of a bar. -/
def Settings.size (settings : Settings) : Size :=
  ⟨settings.width, settings.height⟩

namespace Bar

/-- The style class of a mode. -/
def modeClass (mode : String) : String :=
  "mode-" ++ mode

/-- Requests to the surface of an output. -/
def requests (output : Output) (requests : List Request) : List Effect :=
  requests.map (Effect.request output.name)

/-- Engage a mode. -/
def changeMode (settings : Settings) (mode : String) (bar : Bar) : Step Bar :=
  let engaged := settings.modes.engaged mode
  .withNotes
    (requests bar.output [.removeClass (modeClass bar.mode)]
      ++ (if settings.modes.contains mode then []
          else [.warning (.unknownMode mode bar.output.name)])
      ++ requests bar.output
          (.addClass (modeClass engaged) :: (settings.modes.flags mode).requests))
    { bar with mode := engaged }

/-- Move to an edge.  The surface moves at once, the known corner does not. -/
def changePosition (settings : Settings) (position : Position) (bar : Bar) : Step Bar :=
  .withNotes
    (requests bar.output
      [.removeClass bar.position.name, .addClass position.name,
       .anchors (.ofPosition position settings.size)])
    { bar with position := position }

/-- The bar of an output, before it has a place and a mode. -/
def initial (settings : Settings) (output : Output) (monitor : Rect) (position : Position) :
    Bar where
  output := output
  monitor := monitor
  position := position
  orientation := position.orientation
  size := settings.size
  mode := Mode.defaultName
  offset := ⟨0, 0⟩

/-- The first requests to a new surface. -/
def openingRequests (settings : Settings) (output : Output) (position : Position) :
    List Request :=
  .addClass output.name :: settings.name.toList.map .addClass
    ++ [.addClass position.name, .margins settings.margins, .size settings.size]

/-- Set up a bar on an output and engage its position and mode. -/
def create (settings : Settings) (output : Output) (monitor : Rect) (position : Position)
    (mode : String) : Step Bar := do
  let bar ← .withNotes (requests output (openingRequests settings output position))
    (initial settings output monitor position)
  let bar ← changePosition settings position bar
  changeMode settings mode bar

/-- The warning about a size that the modules do not fit into.  Only the thickness of the
bar counts, and only when there is one. -/
def sizeWarnings (bar : Bar) (size : Size) : List Warning :=
  match bar.orientation with
  | .vertical =>
    if 1 < bar.size.width ∧ bar.size.width < size.width then
      [.widthTooSmall bar.size.width size.width]
    else
      []
  | .horizontal =>
    if 1 < bar.size.height ∧ bar.size.height < size.height then
      [.heightTooSmall bar.size.height size.height]
    else
      []

/-- Take the size that the toolkit settled on. -/
def configure (settings : Settings) (size : Size) (bar : Bar) : Step Bar :=
  .withNotes ((sizeWarnings bar size).map .warning)
    { bar with
      size := size
      offset := StatusBar.offset bar.position settings.margins bar.monitor size }

/-- Take the new place or size of the monitor. -/
def changeMonitor (settings : Settings) (monitor : Rect) (bar : Bar) : Bar :=
  { bar with
    monitor := monitor
    offset := StatusBar.offset bar.position settings.margins monitor bar.size }

end Bar

end StatusBar
