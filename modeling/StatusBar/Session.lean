import StatusBar.Sway.Sync

/-!
# Sessions

An instance together with what it knows from the compositor, and everything that can
happen to the two.  `Session.run` lets a list of events happen one after the other.
-/

namespace StatusBar

/-- An instance and its view of the compositor. -/
structure Session where
  inst : Instance
  sync : Sway.Sync

namespace Session

/-- What can happen to a session. -/
inductive Event where
  | addOutput (output : Output) (monitor : Rect)
  | removeOutput (name : String)
  | setMode (mode : String)
  | setPosition (name : String)
  | setVisible (visible : Bool)
  | toggle
  | setOutputs (patterns : List String)
  | configure (name : String) (size : Size)
  | changeMonitor (name : String) (monitor : Rect)
  | setBarMode (name mode : String)
  | setBarPosition (name : String) (position : Position)
  | setStartedBarId (id : String)
  | applyBarConfig (config : Sway.BarConfig) (revealed : Bool)
  | barConfig (config : Sway.BarConfig)
  | barStateUpdate (update : Sway.BarStateUpdate)
  | modeChange (change : Sway.ModeChange)
  | urgency (urgent : Bool)
  deriving DecidableEq, Repr

/-- A new session without bars.  When the modifier resets the urgency is up to the settings,
unless it is said otherwise. -/
def ofSettings (settings : Settings) (reset : ModifierReset := settings.modifierReset) :
    Session where
  inst := .ofSettings settings
  sync := { modifierReset := reset }

/-- Take over an operation of the instance that answers nothing. -/
def quietly (session : Session) (step : Step Instance) : Step (Session × Option Bool) := do
  return ({ session with inst := ← step }, none)

/-- Take over an operation of the instance with its answer. -/
def answering (session : Session) (step : Step (Instance × Bool)) :
    Step (Session × Option Bool) := do
  let (inst, answer) ← step
  return ({ session with inst }, some answer)

/-- Take over what a handler makes of both parts. -/
def handling (step : Step (Sway.Sync × Instance)) : Step (Session × Option Bool) := do
  let (sync, inst) ← step
  return ({ sync, inst }, none)

/-- Let one event happen.  Some events answer whether they found what they were for. -/
def step (session : Session) : Event → Step (Session × Option Bool)
  | .addOutput output monitor => session.answering (session.inst.addOutput output monitor)
  | .removeOutput name => session.quietly (pure (session.inst.removeOutput name))
  | .setMode mode => session.quietly (session.inst.setMode mode)
  | .setPosition name => session.quietly (session.inst.setPosition name)
  | .setVisible visible => session.quietly (session.inst.setVisible visible)
  | .toggle => session.quietly session.inst.toggle
  | .setOutputs patterns => session.quietly (pure (session.inst.setOutputs patterns))
  | .configure name size => session.quietly (session.inst.configure name size)
  | .changeMonitor name monitor => session.answering (session.inst.changeMonitor name monitor)
  | .setBarMode name mode => session.answering (session.inst.setBarMode name mode)
  | .setBarPosition name position =>
    session.answering (session.inst.setBarPosition name position)
  | .setStartedBarId id => session.quietly (pure (session.inst.setStartedBarId id))
  | .applyBarConfig config revealed =>
    session.answering (session.inst.applyBarConfig config revealed)
  | .barConfig config => handling (session.sync.onBarConfig session.inst config)
  | .barStateUpdate update => handling (session.sync.onBarStateUpdate session.inst update)
  | .modeChange change => handling (session.sync.onModeChange session.inst change)
  | .urgency urgent => handling (session.sync.onUrgency session.inst urgent)

/-- Let events happen one after the other. -/
def run (session : Session) (events : List Event) : Step Session :=
  events.foldlM (fun session event => Prod.fst <$> session.step event) session

end Session

end StatusBar
