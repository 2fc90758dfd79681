import StatusBar.Proofs.Instance.Maintained

/-!
# The style classes of a surface

A surface has the style classes of its output and of the configuration, which are there to
stay, and those of the position and the mode of its bar, which come and go with these.
Classes are told apart by name only, so what is there to stay can leave together with what
comes and goes, if both are called alike.  `Bar.Dressed` is what every change of one bar
keeps.
-/

namespace StatusBar

namespace Bar

/-- The style classes that a bar is to have whatever happens to it. -/
def ownClasses (settings : Settings) (bar : Bar) : Finset String :=
  insert bar.output.name settings.name.toFinset

/-- The style classes of where a bar stands and of the mode that it engages. -/
def stateClasses (bar : Bar) : Finset String :=
  {bar.position.name, modeClass bar.mode}

theorem mem_ownClasses {settings : Settings} {bar : Bar} {name : String} :
  name ∈ bar.ownClasses settings ↔ name = bar.output.name ∨ settings.name = some name
  := by
  simp [ownClasses]

/-- All style classes that a bar is to have. -/
def styleClasses (settings : Settings) (bar : Bar) : Finset String :=
  bar.ownClasses settings ∪ bar.stateClasses

end Bar

/-- A style class of that name comes and goes: it is the class of a position or of a mode
that bars can leave. -/
def Settings.IsPassing (settings : Settings) (name : String) : Prop :=
  (settings.position = none ∧ (name = Position.top.name ∨ name = Position.bottom.name))
    ∨ ∃ mode, settings.modes.contains mode ∧ name = Bar.modeClass mode

/-! ### Names of classes -/

/-- The classes of all modes begin alike. -/
theorem Bar.prefix_modeClass (mode : String) :
  "mode-".toList <+: (modeClass mode).toList
  := by
  rw [modeClass, String.toList_append]
  apply List.prefix_append

theorem Bar.modeClass_injective :
  Function.Injective modeClass
  := by
  intro mode mode' h
  have hlist := congrArg String.toList h
  rw [modeClass, modeClass, String.toList_append, String.toList_append] at hlist
  apply String.toList_injective (List.append_cancel_left hlist)

/-- No position is called like the class of a mode. -/
theorem Position.name_ne_modeClass (position : Position) (mode : String) :
  position.name ≠ Bar.modeClass mode
  := by
  intro h
  have hprefix := Bar.prefix_modeClass mode
  rw [← h] at hprefix
  revert hprefix
  cases position <;> decide

/-- What is called neither like the top or the bottom nor like any mode is there to stay. -/
theorem Settings.not_isPassing {name : String} (htop : name ≠ Position.top.name)
    (hbottom : name ≠ Position.bottom.name) (hmode : ¬ "mode-".toList <+: name.toList)
    (settings : Settings) :
  ¬ settings.IsPassing name
  := by
  rintro (⟨-, hname | hname⟩ | ⟨mode, -, rfl⟩)
  · exact htop hname
  · exact hbottom hname
  · exact hmode (Bar.prefix_modeClass mode)

/-! ### Swapped classes -/

namespace Bar

/-- The classes of a surface once the last one of its kind was swapped for the next. -/
def swapClass (last next : String) (classes : Finset String) : Finset String :=
  insert next (classes.erase last)

section

variable {last next name : String} {classes : Finset String}

theorem mem_swapClass :
  name ∈ swapClass last next classes ↔ name = next ∨ name ≠ last ∧ name ∈ classes
  := by
  rw [swapClass, Finset.mem_insert, Finset.mem_erase]

theorem next_mem_swapClass (last next : String) (classes : Finset String) :
  next ∈ swapClass last next classes
  := mem_swapClass.mpr (.inl rfl)

theorem mem_swapClass_of_ne (hleft : name ≠ last) (hname : name ∈ classes) :
  name ∈ swapClass last next classes
  := mem_swapClass.mpr (.inr ⟨hleft, hname⟩)

/-- The last class is gone, whoever else it belongs to. -/
theorem last_not_mem_swapClass (hother : next ≠ last) :
  last ∉ swapClass last next classes
  := by
  rw [mem_swapClass]
  rintro (hsame | ⟨hleft, -⟩)
  · exact hother hsame.symm
  · exact hleft rfl

/-- A class that is swapped for itself stays. -/
theorem swapClass_self (h : last ∈ classes) :
  swapClass last last classes = classes
  := Finset.insert_erase h

end

/-! ### The classes of one bar -/

variable {settings : Settings}

theorem classes_changeMode (settings : Settings) (mode : String) (bar : Bar)
    (display : Display) :
  (display.receiveAll (requestsTo bar.output.name (bar.changeMode settings mode).log)).classes
    = swapClass (modeClass bar.mode) (modeClass (settings.modes.engaged mode)) display.classes
  := by
  rw [requestsTo_changeMode, Display.receiveAll_cons, Display.receiveAll_cons,
    Display.receiveAll_mode]
  rfl

theorem classes_changePosition (settings : Settings) (position : Position) (bar : Bar)
    (display : Display) :
  (display.receiveAll
      (requestsTo bar.output.name (bar.changePosition settings position).log)).classes
    = swapClass bar.position.name position.name display.classes
  := by
  rw [requestsTo_changePosition]
  rfl

/-- A bar has the class of its position, no others but its own and that of its mode, and of
its own all that do not come and go. -/
structure Dressed (settings : Settings) (position : Position) (bar : Bar)
    (classes : Finset String) : Prop where
  known : settings.modes.contains bar.mode
  stands : bar.position = position
  placed : position.name ∈ classes
  only : ∀ name ∈ classes,
    name ∈ bar.ownClasses settings ∨ name = position.name ∨ name = modeClass bar.mode
  -- Every run keeps the orientation.  A position that is left is then the top or the bottom.
  own : position.orientation = settings.initialPosition.orientation →
    ∀ name ∈ bar.ownClasses settings, ¬ settings.IsPassing name → name ∈ classes

namespace Dressed

variable {position : Position} {bar : Bar} {classes : Finset String}

/-- The class of a mode that is left comes and goes. -/
theorem isPassing_mode (h : bar.Dressed settings position classes) :
  settings.IsPassing (modeClass bar.mode)
  := .inr ⟨bar.mode, h.known, rfl⟩

/-- The class of a position that is left comes and goes. -/
theorem isPassing_position (h : bar.Dressed settings position classes)
    (hopen : settings.position = none)
    (hkept : position.orientation = settings.initialPosition.orientation) :
  settings.IsPassing bar.position.name
  := by
  rw [Settings.initialPosition, hopen] at hkept
  left
  use hopen
  rw [h.stands]
  rcases position.orientation_eq_horizontal_iff.mp hkept with rfl | rfl
  · exact .inl rfl
  · exact .inr rfl

/-- The class of the next mode takes the place of that of the last. -/
theorem changeMode (h : bar.Dressed settings position classes) {mode : String}
    (hknown : settings.modes.contains mode) :
  Dressed settings position { bar with mode := mode }
    (swapClass (modeClass bar.mode) (modeClass mode) classes)
  := by
  constructor
  case known => exact hknown
  case stands => exact h.stands
  case placed =>
    apply mem_swapClass_of_ne (Position.name_ne_modeClass _ _) h.placed
  case only =>
    intro name hname
    rcases mem_swapClass.mp hname with rfl | ⟨hleft, hname⟩
    · exact .inr (.inr rfl)
    · rcases h.only name hname with hown | hposition | hmode
      · exact .inl hown
      · exact .inr (.inl hposition)
      · exact absurd hmode hleft
  case own =>
    intro hkept name hname hpassing
    apply mem_swapClass_of_ne
    · rintro rfl
      exact hpassing h.isPassing_mode
    · apply h.own hkept name hname hpassing

/-- The class of the next position takes the place of that of the last. -/
theorem changePosition (h : bar.Dressed settings position classes)
    (hopen : settings.position = none) {position' : Position}
    (horientation : position'.orientation = position.orientation) :
  Dressed settings position' { bar with position := position' }
    (swapClass bar.position.name position'.name classes)
  := by
  constructor
  case known => exact h.known
  case stands => rfl
  case placed => apply next_mem_swapClass
  case only =>
    intro name hname
    rcases mem_swapClass.mp hname with rfl | ⟨hleft, hname⟩
    · exact .inr (.inl rfl)
    · rcases h.only name hname with hown | hposition | hmode
      · exact .inl hown
      · rw [← h.stands] at hposition
        exact absurd hposition hleft
      · exact .inr (.inr hmode)
  case own =>
    intro hkept name hname hpassing
    rw [horientation] at hkept
    apply mem_swapClass_of_ne
    · rintro rfl
      exact hpassing (h.isPassing_position hopen hkept)
    · apply h.own hkept name hname hpassing

/-- A new bar has its own classes and that of its position. -/
theorem initial (hdefault : settings.modes.contains Mode.defaultName) (output : Output)
    (monitor : Rect) (position : Position) :
  let bar := Bar.initial settings output monitor position
  bar.Dressed settings position (insert position.name (bar.ownClasses settings))
  := by
  intro bar
  constructor
  case known => exact hdefault
  case stands => rfl
  case placed => apply Finset.mem_insert_self
  case only =>
    intro name hname
    rcases Finset.mem_insert.mp hname with rfl | hown
    · exact .inr (.inl rfl)
    · exact .inl hown
  case own =>
    intro _ name hname _
    apply Finset.mem_insert_of_mem hname

end Dressed

/-- A new bar has its own classes and that of its position, and swaps that of the default
mode for that of its mode. -/
theorem classes_create (settings : Settings) (output : Output) (monitor : Rect)
    (position : Position) (mode : String) :
  let bar := initial settings output monitor position
  (Display.replay (requestsTo output.name
      (create settings output monitor position mode).log)).classes
    = swapClass (modeClass bar.mode) (modeClass (settings.modes.engaged mode))
        (insert position.name (bar.ownClasses settings))
  := by
  intro bar
  have hopening : insert position.name (settings.name.toFinset ∪ insert output.name ∅)
      = insert position.name (bar.ownClasses settings) := by
    simp [ownClasses, bar, initial]
  rw [requestsTo_create, Display.replay, Display.receiveAll_append, Display.receiveAll_append,
    Display.receiveAll_openingRequests, Display.receiveAll_cons, Display.receiveAll_cons,
    Display.receiveAll_mode]
  change swapClass _ _ (swapClass position.name position.name
    (insert position.name (settings.name.toFinset ∪ insert output.name ∅))) = _
  rw [hopening, swapClass_self (Finset.mem_insert_self ..)]
  rfl

/-- A bar is dressed, and has the class of its mode. -/
structure Styled (settings : Settings) (_mode : String) (position : Position) (bar : Bar)
    (display : Display) : Prop where
  dressed : bar.Dressed settings position display.classes
  mode : modeClass bar.mode ∈ display.classes

theorem maintained_styled (hdefault : settings.modes.contains Mode.defaultName) :
  Maintained settings (Styled settings)
  := by
  constructor
  case create =>
    intro output monitor position mode
    constructor
    · rw [classes_create]
      apply (Dressed.initial hdefault output monitor position).changeMode
      apply ModeTable.contains_engaged _ _ hdefault
    · rw [classes_create]
      apply next_mem_swapClass
  case changeMode =>
    intro mode position bar display mode' h
    constructor
    · rw [classes_changeMode]
      apply h.dressed.changeMode
      apply ModeTable.contains_engaged _ _ hdefault
    · rw [classes_changeMode]
      apply next_mem_swapClass
  case changePosition =>
    intro mode position bar display position' hopen horientation h
    constructor
    · rw [classes_changePosition]
      apply h.dressed.changePosition hopen horientation
    · rw [classes_changePosition]
      apply mem_swapClass_of_ne (Position.name_ne_modeClass _ _).symm h.mode
  case configure =>
    intro mode position bar display size h
    obtain ⟨⟨hknown, hstands, hplaced, honly, hown⟩, hmode⟩ := h
    exact ⟨⟨hknown, hstands, hplaced, honly, hown⟩, hmode⟩
  case changeMonitor =>
    intro mode position bar display monitor h
    obtain ⟨⟨hknown, hstands, hplaced, honly, hown⟩, hmode⟩ := h
    exact ⟨⟨hknown, hstands, hplaced, honly, hown⟩, hmode⟩

end Bar

end StatusBar
