import StatusBar.Document.Basic
import StatusBar.Mode

/-!
# Messages of the compositor

The id under which the compositor knows a bar, the three messages that a bar follows, the
mode that a bar configuration asks for, and the documents that the messages are sent as.
-/

namespace StatusBar.Sway

/-- The id of a bar that is given none. -/
def defaultBarId : String := "bar-0"

/-- The id that a bar follows: the configured one, else the one it was started with; an
empty id counts as none, but one that is configured hides the other. -/
def resolveBarId (configured started : Option String) : String :=
  match configured.or started with
  | none => defaultBarId
  | some id => if id = "" then defaultBarId else id

/-- What the compositor wants a bar to be like. -/
structure BarConfig where
  id : String := ""
  mode : String := ""
  hiddenState : String := ""
  position : String := ""
  /-- The outputs of the bar, none for all of them. -/
  outputs : List String := []
  deriving DecidableEq, Repr, Inhabited

/-- Whether a modifier key asks for a bar. -/
structure BarStateUpdate where
  id : String := ""
  visibleByModifier : Bool := false
  deriving DecidableEq, Repr, Inhabited

/-- The binding mode that was entered. -/
structure ModeChange where
  change : String := ""
  deriving DecidableEq, Repr, Inhabited

/-- The mode that a bar should be in.  A bar in hide mode that is to be hidden shows only
while it is revealed. -/
def BarConfig.engagedMode (config : BarConfig) (revealed : Bool) : String :=
  if config.mode = Mode.invisibleName then
    Mode.invisibleName
  else if config.mode = Mode.hideName ∧ config.hiddenState = Mode.hideName ∧ !revealed then
    Mode.invisibleName
  else
    config.mode

/-- The document of a bar configuration. -/
def BarConfig.document (config : BarConfig) : Document :=
  .object
    [("id", .string config.id), ("mode", .string config.mode),
     ("hidden_state", .string config.hiddenState), ("position", .string config.position),
     ("outputs", .array (config.outputs.map .string))]

/-- The document of a bar state update. -/
def BarStateUpdate.document (update : BarStateUpdate) : Document :=
  .object [("id", .string update.id), ("visible_by_modifier", .bool update.visibleByModifier)]

/-- The document of a mode change. -/
def ModeChange.document (change : ModeChange) : Document :=
  .object [("change", .string change.change)]

end StatusBar.Sway
