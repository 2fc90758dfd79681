import StatusBar.Bar
import StatusBar.Sway.Message

/-!
# Instances

All bars that run from one configuration, with the state they share: mode, position,
visibility and output patterns.  Each operation gives the instance after it, and the
effects on the way, in the order in which the bars were created.
-/

namespace StatusBar

/-- The bars of one configuration and what they share. -/
structure Instance where
  settings : Settings
  mode : String
  position : Position
  visible : Bool
  outputs : List String
  /-- The bars, in the order of their creation. -/
  bars : List Bar
  barId : String
  /-- What the compositor last said about hiding. -/
  hiddenState : Option String

namespace Instance

/-- The mode of an instance by its visibility. -/
def modeFor (settings : Settings) (visible : Bool) : String :=
  if visible then settings.initialMode else Mode.invisibleName

/-- A new instance without bars. -/
def ofSettings (settings : Settings) : Instance where
  settings := settings
  mode := modeFor settings !settings.startHidden
  position := settings.initialPosition
  visible := !settings.startHidden
  outputs := settings.outputs
  bars := []
  barId := Sway.resolveBarId settings.barId none
  hiddenState := none

variable (inst : Instance)

/-- Whether the output patterns choose an output. -/
def isOutputEnabled (output : Output) : Bool :=
  output.matchesPatterns inst.outputs

/-- Whether there is a bar on an output of that name. -/
def hasBar (name : String) : Bool :=
  inst.bars.any fun bar => bar.output.name = name

/-- Create a bar on a new output, unless the patterns are against it or it has one.  Says
whether a bar was created. -/
def addOutput (output : Output) (monitor : Rect) : Step (Instance × Bool) :=
  if inst.isOutputEnabled output && !inst.hasBar output.name then do
    let bar ← Bar.create inst.settings output monitor inst.position inst.mode
    return ({ inst with bars := inst.bars ++ [bar] }, true)
  else
    pure (inst, false)

/-- Drop the bar on an output that is gone. -/
def removeOutput (name : String) : Instance :=
  { inst with bars := inst.bars.filter fun bar => bar.output.name ≠ name }

/-- Change every bar. -/
def onBars (change : Bar → Step Bar) : Step Instance := do
  let bars ← Logged.each change inst.bars
  return { inst with bars := bars }

/-- Engage a mode on all bars.  A mode that the table lacks is refused, and the one that
is engaged already is left alone. -/
def setMode (mode : String) : Step Instance :=
  if !inst.settings.modes.contains mode then
    .withNotes [.warning (.invalidMode mode)] inst
  else if mode = inst.mode then
    pure inst
  else
    onBars { inst with mode := mode } (Bar.changeMode inst.settings mode)

/-- Move all bars to another edge.  A position that the configuration fixes stays, and so
does one whose change would turn the bars. -/
def moveTo (position : Position) : Step Instance :=
  if inst.settings.position.isSome || position = inst.position then
    pure inst
  else if position.orientation ≠ inst.position.orientation then
    .withNotes [.warning (.orientationKept inst.position position)] inst
  else
    onBars { inst with position := position } (Bar.changePosition inst.settings position)

/-- Move all bars to the edge of that name, if there is one. -/
def setPosition (name : String) : Step Instance :=
  match Position.ofName? name with
  | some position => inst.moveTo position
  | none => pure inst

/-- Show or hide all bars. -/
def setVisible (visible : Bool) : Step Instance :=
  setMode { inst with visible := visible } (modeFor inst.settings visible)

/-- Show hidden bars, and hide shown ones. -/
def toggle : Step Instance :=
  inst.setVisible !inst.visible

/-- Replace the output patterns, and drop the bars that they are against. -/
def setOutputs (patterns : List String) : Instance :=
  { inst with
    outputs := patterns
    bars := inst.bars.filter fun bar => bar.output.matchesPatterns patterns }

/-- Change the bar on the output of that name, and say whether there is one. -/
def onBar (name : String) (change : Bar → Step Bar) : Step (Instance × Bool) := do
  let (bars, found) ← go inst.bars
  return ({ inst with bars := bars }, found)
where
  /-- Change the first bar of that name. -/
  go : List Bar → Step (List Bar × Bool)
    | [] => pure ([], false)
    | bar :: bars =>
      if bar.output.name = name then do
        let bar ← change bar
        return (bar :: bars, true)
      else do
        let (bars, found) ← go bars
        return (bar :: bars, found)

/-- Take the size that the toolkit settled on for the bar of an output. -/
def configure (name : String) (size : Size) : Step Instance :=
  if inst.hasBar name then
    Prod.fst <$> inst.onBar name (Bar.configure inst.settings size)
  else
    .withNotes [.warning (.noBarOnOutput name)] inst

/-- Take the new place or size of the monitor of an output. -/
def changeMonitor (name : String) (monitor : Rect) : Step (Instance × Bool) :=
  inst.onBar name fun bar => pure (bar.changeMonitor inst.settings monitor)

/-- Engage a mode on one bar only. -/
def setBarMode (name mode : String) : Step (Instance × Bool) :=
  inst.onBar name (Bar.changeMode inst.settings mode)

/-- Move one bar only. -/
def setBarPosition (name : String) (position : Position) : Step (Instance × Bool) :=
  inst.onBar name (Bar.changePosition inst.settings position)

/-- Follow the id that the bar was started with, unless the configuration names one. -/
def setStartedBarId (id : String) : Instance :=
  { inst with barId := Sway.resolveBarId inst.settings.barId (some id) }

end Instance

end StatusBar
