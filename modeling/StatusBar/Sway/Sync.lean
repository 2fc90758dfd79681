import StatusBar.Instance
import StatusBar.Sway.Message

/-!
# Following the compositor

A `Sync` holds the last bar configuration that was applied, and what asks for a hidden
bar: a modifier key, a binding mode, or an urgent workspace.  Its handlers update it
together with the instance that it drives.
-/

namespace StatusBar

/-- Take over a bar configuration that is meant for this bar, and say whether it is. -/
def Instance.applyBarConfig (inst : Instance) (config : Sway.BarConfig) (revealed : Bool) :
    Step (Instance × Bool) :=
  if config.id ≠ inst.barId then
    pure (inst, false)
  else do
    let inst ← (inst.setOutputs config.outputs).setPosition config.position
    let inst ← setMode { inst with hiddenState := some config.hiddenState }
      (config.engagedMode revealed)
    return (inst, true)

namespace Sway

/-- What is known from the compositor. -/
structure Sync where
  /-- The last bar configuration that was applied. -/
  config : Option BarConfig := none
  modifierReset : ModifierReset
  visibleByModifier : Bool := false
  visibleByMode : Bool := false
  visibleByUrgency : Bool := false
  /-- Nothing else happened since the modifier was pressed. -/
  modifierAlone : Bool := false
  deriving DecidableEq, Repr

namespace Sync

/-- Whether something asks for a hidden bar. -/
def revealed (sync : Sync) : Bool :=
  sync.visibleByModifier || sync.visibleByMode || sync.visibleByUrgency

/-- Bring the instance into the mode that the configuration asks for now. -/
def refresh (sync : Sync) (inst : Instance) : Step Instance :=
  match sync.config with
  | none => pure inst
  | some config => inst.setMode (config.engagedMode sync.revealed)

/-- A bar configuration arrives. -/
def onBarConfig (sync : Sync) (inst : Instance) (config : BarConfig) :
    Step (Sync × Instance) := do
  let (inst, applied) ← inst.applyBarConfig config sync.revealed
  return (if applied then { sync with config := some config } else sync, inst)

/-- What the modifier does to the urgency that was noticed. -/
def urgencyAfter (sync : Sync) (pressed : Bool) : Bool :=
  match sync.modifierReset, pressed with
  | .press, true => false
  | .press, false => sync.visibleByUrgency
  | .release, true => sync.visibleByUrgency
  | .release, false => sync.visibleByUrgency && !sync.modifierAlone

/-- The modifier is pressed or released. -/
def modifierTo (sync : Sync) (pressed : Bool) : Sync :=
  { sync with
    visibleByModifier := pressed
    visibleByUrgency := sync.urgencyAfter pressed
    modifierAlone := pressed || sync.modifierAlone }

/-- A binding mode is entered. -/
def bindingModeTo (sync : Sync) (name : String) : Sync :=
  { sync with
    visibleByMode := name ≠ "default"
    modifierAlone := false }

/-- A workspace becomes urgent, or the last urgent one is visited. -/
def urgencyTo (sync : Sync) (urgent : Bool) : Sync :=
  { sync with
    visibleByUrgency := urgent
    modifierAlone := false }

/-- Change what is known, and bring the instance into the mode that follows. -/
def andRefresh (sync : Sync) (inst : Instance) : Step (Sync × Instance) := do
  let inst ← sync.refresh inst
  return (sync, inst)

/-- A bar state update arrives.  One for another bar is ignored. -/
def onBarStateUpdate (sync : Sync) (inst : Instance) (update : BarStateUpdate) :
    Step (Sync × Instance) :=
  if update.id ≠ inst.barId then
    pure (sync, inst)
  else
    (sync.modifierTo update.visibleByModifier).andRefresh inst

/-- A binding mode is entered. -/
def onModeChange (sync : Sync) (inst : Instance) (change : ModeChange) :
    Step (Sync × Instance) :=
  (sync.bindingModeTo change.change).andRefresh inst

/-- A workspace becomes urgent, or the last urgent one is visited. -/
def onUrgency (sync : Sync) (inst : Instance) (urgent : Bool) : Step (Sync × Instance) :=
  (sync.urgencyTo urgent).andRefresh inst

end Sync

end Sway

end StatusBar
