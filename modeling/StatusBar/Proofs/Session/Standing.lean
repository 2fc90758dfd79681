import StatusBar.Proofs.Instance.Shared
import StatusBar.Proofs.Session.Watched

/-!
# Where bars stand

An instance stands at the edge that its settings fix, or moves between the top and the
bottom edge, whatever it is asked for: `Instance.Becomes` is what every event keeps.  The
bars follow it, and none is ever turned from the direction that it was laid out for.
-/

namespace StatusBar

namespace Instance

/-- The second instance is the first after something happened to it: it has the same
settings and the same position, or where these leave the position open, one of the same
orientation. -/
structure Becomes (inst inst' : Instance) : Prop where
  settings : inst'.settings = inst.settings
  position : inst'.position = inst.position
    ∨ inst.settings.position = none ∧ inst'.position.orientation = inst.position.orientation

namespace Becomes

variable {inst inst' inst'' : Instance}

/-- Nothing else matters. -/
theorem of_eq (hsettings : inst'.settings = inst.settings)
    (hposition : inst'.position = inst.position) :
  inst.Becomes inst'
  := ⟨hsettings, .inl hposition⟩

theorem of_shared (h : inst'.shared = inst.shared) :
  inst.Becomes inst'
  := by
  apply of_eq
  · apply congrArg Instance.settings h
  · apply congrArg Instance.position h

theorem refl (inst : Instance) :
  inst.Becomes inst
  := of_eq rfl rfl

theorem trans (h : inst.Becomes inst') (h' : inst'.Becomes inst'') :
  inst.Becomes inst''
  := by
  use h'.settings.trans h.settings
  rcases h'.position with hsame' | ⟨hopen', hkept'⟩
  · rw [hsame']
    exact h.position
  · right
    rw [h.settings] at hopen'
    use hopen'
    rw [hkept']
    rcases h.position with hsame | ⟨-, hkept⟩
    · rw [hsame]
    · exact hkept

end Becomes

variable (inst : Instance)

theorem becomes_setMode (mode : String) :
  inst.Becomes (inst.setMode mode).value
  := by
  have h := inst.shared_setMode mode
  apply Becomes.of_eq
  · apply congrArg Instance.settings h
  · apply congrArg Instance.position h

theorem becomes_setVisible (visible : Bool) :
  inst.Becomes (inst.setVisible visible).value
  := by
  have hvisible : inst.Becomes { inst with visible := visible } := .of_eq rfl rfl
  apply hvisible.trans (becomes_setMode _ _)

/-- An instance moves only where the settings leave it open, and without turning. -/
theorem becomes_moveTo (position : Position) :
  inst.Becomes (inst.moveTo position).value
  := by
  rw [moveTo]
  split
  case isTrue => apply Becomes.refl
  case isFalse hmoves =>
    split
    case isTrue => apply Becomes.refl
    case isFalse hkept =>
      constructor
      · rfl
      · right
        exact ⟨open_of_moves hmoves, not_not.mp hkept⟩

theorem becomes_setPosition (name : String) :
  inst.Becomes (inst.setPosition name).value
  := by
  rw [setPosition]
  split
  · apply becomes_moveTo
  · apply Becomes.refl

theorem becomes_applyBarConfig (config : Sway.BarConfig) (revealed : Bool) :
  inst.Becomes (inst.applyBarConfig config revealed).value.1
  := by
  rw [applyBarConfig]
  split
  case isTrue => apply Becomes.refl
  case isFalse =>
    let moved := ((inst.setOutputs config.outputs).setPosition config.position).value
    have houtputs : inst.Becomes (inst.setOutputs config.outputs) := .of_eq rfl rfl
    have hmoved : (inst.setOutputs config.outputs).Becomes moved := becomes_setPosition _ _
    have hhidden : moved.Becomes { moved with hiddenState := some config.hiddenState } :=
      .of_eq rfl rfl
    apply (houtputs.trans hmoved).trans (hhidden.trans (becomes_setMode _ _))

theorem becomes_refresh (sync : Sway.Sync) :
  inst.Becomes (sync.refresh inst).value
  := by
  rw [Sway.Sync.refresh]
  split
  · apply Becomes.refl
  · apply becomes_setMode

end Instance

namespace Session

open Instance (Becomes)

theorem becomes_step (session : Session) (event : Event) :
  session.inst.Becomes (session.step event).value.1.inst
  := by
  cases event with
  | addOutput output monitor => exact .of_shared (session.inst.shared_addOutput output monitor)
  | removeOutput name => exact .of_eq rfl rfl
  | setMode mode => exact session.inst.becomes_setMode mode
  | setPosition name => exact session.inst.becomes_setPosition name
  | setVisible visible => exact session.inst.becomes_setVisible visible
  | toggle => exact session.inst.becomes_setVisible _
  | setOutputs patterns => exact .of_eq rfl rfl
  | configure name size => exact .of_shared (session.inst.shared_configure name size)
  | changeMonitor name monitor => exact .of_eq rfl rfl
  | setBarMode name mode => exact .of_eq rfl rfl
  | setBarPosition name position => exact .of_eq rfl rfl
  | setStartedBarId id => exact .of_eq rfl rfl
  | applyBarConfig config revealed => exact session.inst.becomes_applyBarConfig config revealed
  | barConfig config => exact session.inst.becomes_applyBarConfig config _
  | barStateUpdate update =>
    rw [step, Sway.Sync.onBarStateUpdate]
    split
    · exact .refl _
    · exact session.inst.becomes_refresh _
  | modeChange change => exact session.inst.becomes_refresh _
  | urgency urgent => exact session.inst.becomes_refresh _

/-- Whatever happens, an instance keeps its settings, and its position or at least the
orientation of that. -/
theorem becomes_run (start : Session) (events : List Event) :
  start.inst.Becomes (start.run events).value.inst
  := by
  induction events generalizing start with
  | nil => apply Becomes.refl
  | cons event events ih => apply (start.becomes_step event).trans (ih _)

end Session

/-! ### The bars -/

/-- A bar stands where the bars are to stand, and was laid out for the direction of that
edge. -/
structure Bar.Upright (_mode : String) (position : Position) (bar : Bar) (_display : Display) :
    Prop where
  stands : bar.position = position
  direction : bar.orientation = position.orientation

theorem Bar.maintained_upright (settings : Settings) :
  Maintained settings Upright
  := by
  constructor
  case create =>
    intro output monitor position mode
    exact ⟨rfl, rfl⟩
  case changeMode =>
    intro mode position bar display mode' h
    exact ⟨h.stands, h.direction⟩
  case changePosition =>
    intro mode position bar display position' _ horientation h
    exact ⟨rfl, h.direction.trans horientation.symm⟩
  case configure =>
    intro mode position bar display size h
    exact ⟨h.stands, h.direction⟩
  case changeMonitor =>
    intro mode position bar display monitor h
    exact ⟨h.stands, h.direction⟩

namespace Session

/-- Over any run an instance stays at a position that its settings fix, and else at the top
or at the bottom. -/
theorem position_run (settings : Settings) (reset : ModifierReset) (events : List Event) :
  let inst := ((ofSettings settings reset).run events).value.inst
  (∀ position, settings.position = some position → inst.position = position)
    ∧ (settings.position = none → inst.position = .top ∨ inst.position = .bottom)
  := by
  intro inst
  have hposition : inst.position = settings.initialPosition
      ∨ settings.position = none
        ∧ inst.position.orientation = settings.initialPosition.orientation :=
    ((ofSettings settings reset).becomes_run events).position
  constructor
  · intro position hfixed
    rw [Settings.initialPosition, hfixed] at hposition
    rcases hposition with hsame | ⟨hopen, -⟩
    · exact hsame
    · cases hopen
  · intro hopen
    apply (Position.orientation_eq_horizontal_iff _).mp
    rw [Settings.initialPosition, hopen] at hposition
    rcases hposition with hsame | ⟨-, hkept⟩
    · rw [hsame]
      rfl
    · exact hkept

/-- No run turns an instance. -/
theorem orientation_run (settings : Settings) (reset : ModifierReset) (events : List Event) :
  ((ofSettings settings reset).run events).value.inst.position.orientation
    = settings.initialPosition.orientation
  := by
  rcases ((ofSettings settings reset).becomes_run events).position with hsame | ⟨-, hkept⟩
  · rw [hsame]
    rfl
  · exact hkept

/-- The bars of every run stand where the instance does, and were laid out for that. -/
theorem upright_run (settings : Settings) (reset : ModifierReset) (events : List Event)
    (hshared : ∀ event ∈ events, event.isShared) :
  let inst := ((ofSettings settings reset).run events).value.inst
  ∀ bar ∈ inst.bars, bar.position = inst.position ∧ bar.orientation = inst.position.orientation
  := by
  intro inst bar hbar
  have h := Watched.meets_ofSettings (Bar.maintained_upright settings) reset events hshared
  rw [Watched.inst_run] at h
  have hupright := h.bars.good bar hbar
  exact ⟨hupright.stands, hupright.direction⟩

/-- After every run an instance stands at the position that its settings fix, and else at
the top or at the bottom.  All bars stand there, and run in the direction of that edge,
which is the same from the start. -/
theorem bars_stand (settings : Settings) (reset : ModifierReset) (events : List Event)
    (hshared : ∀ event ∈ events, event.isShared) :
  let inst := ((ofSettings settings reset).run events).value.inst
  (∀ position, settings.position = some position → inst.position = position)
    ∧ (settings.position = none → inst.position = .top ∨ inst.position = .bottom)
    ∧ ∀ bar ∈ inst.bars,
      bar.position = inst.position
        ∧ bar.orientation = bar.position.orientation
        ∧ bar.orientation = settings.initialPosition.orientation
  := by
  intro inst
  obtain ⟨hfixed, hopen⟩ := position_run settings reset events
  use hfixed, hopen
  intro bar hbar
  obtain ⟨hposition, hdirection⟩ := upright_run settings reset events hshared bar hbar
  use hposition
  constructor
  · rw [hposition]
    exact hdirection
  · rw [← orientation_run settings reset events]
    exact hdirection

/-- A run that asks for every edge, between and in a configuration. -/
def everyEdge : List Event :=
  [.addOutput ⟨"DP-1", ""⟩ ⟨0, 0, 1920, 1080⟩, .setPosition "left", .setPosition "upside down",
   .barConfig { id := "bar-0", mode := "dock", position := "bottom" },
   .addOutput ⟨"DP-2", ""⟩ ⟨1920, 0, 1920, 1080⟩, .setPosition "right"]

/-- Of all requests only the one for the bottom is followed, and by both bars. -/
theorem bars_stand_everyEdge :
  let inst := ((ofSettings Settings.initial).run everyEdge).value.inst
  (∀ event ∈ everyEdge, event.isShared)
    ∧ inst.bars.map (·.output.name) = ["DP-1", "DP-2"]
    ∧ (inst.position = .top ∨ inst.position = .bottom)
    ∧ ∀ bar ∈ inst.bars, bar.position = .bottom ∧ bar.orientation = .horizontal
  := by
  intro inst
  have hshared : ∀ event ∈ everyEdge, event.isShared := by decide
  have hbottom : inst.position = .bottom := by decide
  obtain ⟨-, hopen, hbars⟩ := bars_stand Settings.initial _ everyEdge hshared
  use hshared, by decide, hopen rfl
  intro bar hbar
  obtain ⟨hposition, -, hdirection⟩ := hbars bar hbar
  rw [← hbottom]
  exact ⟨hposition, hdirection⟩

end Session

end StatusBar
