import Mathlib.Data.Finset.Option
import StatusBar.Bar

/-!
# What surfaces show

A surface receives requests one after the other.  Of what it is asked for it shows the
last, and it has the style classes that were added and not removed since.  `Display` is
what a surface shows, and `Display.replay` what it shows after the requests it received.
-/

namespace StatusBar

/-- What a surface shows, as far as anything was asked of it. -/
structure Display where
  layer : Option Layer := none
  exclusive : Option Bool := none
  passthrough : Option Bool := none
  visible : Option Bool := none
  anchors : Option Anchors := none
  margins : Option Margins := none
  size : Option Size := none
  classes : Finset String := ∅

namespace Display

/-- What a surface shows after one more request. -/
def receive (display : Display) : Request → Display
  | .layer layer => { display with layer := some layer }
  | .exclusive value => { display with exclusive := some value }
  | .passthrough value => { display with passthrough := some value }
  | .visible value => { display with visible := some value }
  | .anchors anchors => { display with anchors := some anchors }
  | .margins margins => { display with margins := some margins }
  | .size size => { display with size := some size }
  | .addClass name => { display with classes := insert name display.classes }
  | .removeClass name => { display with classes := display.classes.erase name }

/-- What a surface shows after some more requests. -/
def receiveAll (display : Display) (requests : List Request) : Display :=
  requests.foldl receive display

/-- What a new surface shows after the requests it received. -/
def replay (requests : List Request) : Display :=
  receiveAll {} requests

@[simp]
theorem receiveAll_nil (display : Display) :
  display.receiveAll [] = display
  := rfl

@[simp]
theorem receiveAll_cons (display : Display) (request : Request) (requests : List Request) :
  display.receiveAll (request :: requests) = (display.receive request).receiveAll requests
  := rfl

theorem receiveAll_append (display : Display) (requests requests' : List Request) :
  display.receiveAll (requests ++ requests')
    = (display.receiveAll requests).receiveAll requests'
  := List.foldl_append

/-- Engaging a mode sets the flags of the mode, and the layer if the mode names one. -/
theorem receiveAll_mode (display : Display) (mode : Mode) :
  display.receiveAll mode.requests
    = { display with
        layer := mode.layer.or display.layer
        exclusive := some mode.exclusive
        passthrough := some mode.passthrough
        visible := some mode.visible }
  := by
  obtain ⟨layer, exclusive, passthrough, visible⟩ := mode
  cases layer with
  | none => rfl
  | some layer => rfl

theorem receiveAll_openingRequests (display : Display) (settings : Settings) (output : Output)
    (position : Position) :
  display.receiveAll (Bar.openingRequests settings output position)
    = { display with
        margins := some settings.margins
        size := some settings.size
        classes :=
          insert position.name (settings.name.toFinset ∪ insert output.name display.classes) }
  := by
  unfold Bar.openingRequests
  cases settings.name with
  | none => simp [receive]
  | some name => simp [receive, Finset.insert_comm name output.name]

end Display

/-! ### The requests to one surface -/

/-- The request that an effect is to the surface on an output. -/
def Effect.to? (name : String) : Effect → Option Request
  | request output r => if output = name then some r else none
  | warning _ => none

/-- The requests to the surface on an output. -/
def requestsTo (name : String) (effects : List Effect) : List Request :=
  effects.filterMap (Effect.to? name)

variable {name : String}

@[simp]
theorem requestsTo_append (effects effects' : List Effect) :
  requestsTo name (effects ++ effects') = requestsTo name effects ++ requestsTo name effects'
  := List.filterMap_append

theorem requestsTo_flatMap {α : Type} (items : List α) (f : α → List Effect) :
  requestsTo name (items.flatMap f) = items.flatMap fun item => requestsTo name (f item)
  := List.filterMap_flatMap

@[simp]
theorem requestsTo_warnings (causes : List Warning) :
  requestsTo name (causes.map .warning) = []
  := by
  induction causes with
  | nil => rfl
  | cons cause causes ih => exact ih

@[simp]
theorem requestsTo_own (output : Output) (requests : List Request) :
  requestsTo output.name (Bar.requests output requests) = requests
  := by
  induction requests with
  | nil => rfl
  | cons request requests ih =>
    rw [Bar.requests, List.map_cons, requestsTo, List.filterMap_cons, Effect.to?, if_pos rfl]
    exact congrArg (request :: ·) ih

theorem requestsTo_other {output : Output} (h : output.name ≠ name) (requests : List Request) :
  requestsTo name (Bar.requests output requests) = []
  := by
  induction requests with
  | nil => rfl
  | cons request requests ih =>
    rw [Bar.requests, List.map_cons, requestsTo, List.filterMap_cons, Effect.to?, if_neg h]
    exact ih

/-! ### Changes of one bar -/

namespace Bar

/-- A change of a bar that leaves it on its output, and asks nothing of other surfaces. -/
structure Confined (change : Bar → Step Bar) : Prop where
  output : ∀ bar, (change bar).value.output = bar.output
  requests : ∀ bar name, bar.output.name ≠ name → requestsTo name (change bar).log = []

theorem requestsTo_changeMode (settings : Settings) (mode : String) (bar : Bar) :
  requestsTo bar.output.name (bar.changeMode settings mode).log
    = .removeClass (modeClass bar.mode) :: .addClass (modeClass (settings.modes.engaged mode))
      :: (settings.modes.flags mode).requests
  := by
  simp only [changeMode, Logged.withNotes, requestsTo_append, requestsTo_own]
  split <;> rfl

theorem requestsTo_changePosition (settings : Settings) (position : Position) (bar : Bar) :
  requestsTo bar.output.name (bar.changePosition settings position).log
    = [.removeClass bar.position.name, .addClass position.name,
       .anchors (.ofPosition position settings.size)]
  := requestsTo_own ..

theorem requestsTo_create (settings : Settings) (output : Output) (monitor : Rect)
    (position : Position) (mode : String) :
  requestsTo output.name (create settings output monitor position mode).log
    = openingRequests settings output position
      ++ [.removeClass position.name, .addClass position.name,
          .anchors (.ofPosition position settings.size)]
      ++ .removeClass (modeClass Mode.defaultName)
      :: .addClass (modeClass (settings.modes.engaged mode))
      :: (settings.modes.flags mode).requests
  := by
  have hposition := requestsTo_changePosition settings position
    (initial settings output monitor position)
  have hmode := requestsTo_changeMode settings mode
    ((initial settings output monitor position).changePosition settings position).value
  simp only [create, Logged.log_bind, requestsTo_append]
  rw [List.append_assoc]
  apply congrArg₂ _ (requestsTo_own ..)
  exact congrArg₂ _ hposition hmode

theorem confined_changeMode (settings : Settings) (mode : String) :
  Confined (changeMode settings mode)
  := by
  constructor
  · intro bar
    rfl
  · intro bar name hname
    simp only [changeMode, Logged.withNotes, requestsTo_append, requestsTo_other hname]
    split <;> rfl

theorem confined_changePosition (settings : Settings) (position : Position) :
  Confined (changePosition settings position)
  := by
  constructor
  · intro bar
    rfl
  · intro bar name hname
    apply requestsTo_other hname

/-- A new bar asks nothing of the surfaces of others. -/
theorem requestsTo_create_other {output : Output} (hname : output.name ≠ name)
    (settings : Settings) (monitor : Rect) (position : Position) (mode : String) :
  requestsTo name (create settings output monitor position mode).log = []
  := by
  simp only [create, Logged.log_bind, requestsTo_append]
  rw [(confined_changePosition settings position).requests _ _ hname,
    (confined_changeMode settings mode).requests _ _ hname]
  simp only [Logged.withNotes, requestsTo_other hname, List.append_nil]

theorem requestsTo_configure (settings : Settings) (size : Size) (bar : Bar) :
  requestsTo name (bar.configure settings size).log = []
  := requestsTo_warnings _

theorem confined_configure (settings : Settings) (size : Size) :
  Confined (configure settings size)
  := by
  constructor
  · intro bar
    rfl
  · intro bar name _
    apply requestsTo_configure

theorem confined_changeMonitor (settings : Settings) (monitor : Rect) :
  Confined fun bar => pure (bar.changeMonitor settings monitor)
  := by
  constructor
  · intro bar
    rfl
  · intro bar name _
    rfl

end Bar

end StatusBar
