import Mathlib.Tactic.Use
import StatusBar.Sway.Sync

/-!
# What the bars of an instance share

An instance without its bars is what they share.  What an operation makes of it does not
depend on the bars: most operations keep it, and the others set the parts that they are
about.
-/

namespace StatusBar.Instance

/-- The instance without its bars. -/
def shared (inst : Instance) : Instance :=
  { inst with bars := [] }

/-- The mode of an instance once it was asked to engage one. -/
def modeAfter (inst : Instance) (mode : String) : String :=
  if inst.settings.modes.contains mode then mode else inst.mode

variable (inst : Instance)

theorem shared_addOutput (output : Output) (monitor : Rect) :
  (inst.addOutput output monitor).value.1.shared = inst.shared
  := by
  rw [addOutput]
  split
  · rfl
  · rfl

theorem shared_removeOutput (name : String) :
  (inst.removeOutput name).shared = inst.shared
  := rfl

theorem shared_onBar (name : String) (change : Bar → Step Bar) :
  (inst.onBar name change).value.1.shared = inst.shared
  := rfl

theorem shared_configure (name : String) (size : Size) :
  (inst.configure name size).value.shared = inst.shared
  := by
  rw [configure]
  split
  · rw [Logged.value_map]
    apply shared_onBar
  · rfl

variable {inst} in
/-- Another mode of the table is engaged on all bars. -/
theorem setMode_eq_onBars {mode : String} (hknown : inst.settings.modes.contains mode)
    (hother : mode ≠ inst.mode) :
  inst.setMode mode
    = onBars { inst with mode := mode } (Bar.changeMode inst.settings mode)
  := by
  rw [setMode, if_neg, if_neg hother]
  rw [hknown]
  apply Bool.false_ne_true

variable {inst} in
/-- Another position of the same orientation is taken by all bars, unless the settings fix
one. -/
theorem moveTo_eq_onBars {position : Position} (hopen : inst.settings.position = none)
    (hother : position ≠ inst.position)
    (hkept : position.orientation = inst.position.orientation) :
  inst.moveTo position
    = onBars { inst with position := position } (Bar.changePosition inst.settings position)
  := by
  rw [moveTo, if_neg, if_neg (not_not_intro hkept)]
  rw [hopen, Option.isSome_none, Bool.false_or]
  simpa using hother

/-- A mode is engaged if the table has it. -/
theorem shared_setMode (mode : String) :
  (inst.setMode mode).value.shared = { inst.shared with mode := inst.modeAfter mode }
  := by
  rw [setMode, modeAfter]
  by_cases hcontains : inst.settings.modes.contains mode
  · rw [if_pos hcontains, if_neg]
    · split
      case isTrue hsame =>
        rw [hsame]
        rfl
      case isFalse => rfl
    · rw [hcontains]
      apply Bool.false_ne_true
  · rw [if_neg hcontains, if_pos]
    · rfl
    · simpa using hcontains

variable {inst} in
/-- A mode of the table is engaged afterwards. -/
theorem mode_setMode {mode : String} (hknown : inst.settings.modes.contains mode) :
  (inst.setMode mode).value.mode = mode
  := (congrArg Instance.mode (inst.shared_setMode mode)).trans (if_pos hknown)

variable {inst} in
/-- A position of the same orientation is taken, unless the settings fix one. -/
theorem position_setPosition {position : Position} (hopen : inst.settings.position = none)
    (hkept : position.orientation = inst.position.orientation) :
  (inst.setPosition position.name).value.position = position
  := by
  rw [setPosition, Position.ofName?_name]
  change (inst.moveTo position).value.position = position
  by_cases hother : position = inst.position
  · rw [moveTo, if_pos]
    · exact hother.symm
    · simp [hother]
  · rw [moveTo_eq_onBars hopen hother hkept]
    rfl

/-- An instance that moves has settings that leave its position open. -/
theorem open_of_moves {inst : Instance} {position : Position}
    (h : ¬ (inst.settings.position.isSome || position = inst.position)) :
  inst.settings.position = none
  := by
  rw [Bool.or_eq_true, not_or] at h
  apply Option.not_isSome_iff_eq_none.mp h.1

/-- A move changes the position at most. -/
theorem shared_moveTo (position : Position) :
  ∃ position', (inst.moveTo position).value.shared = { inst.shared with position := position' }
  := by
  rw [moveTo]
  split
  · use inst.position
    rfl
  · split
    · use inst.position
      rfl
    · use position
      rfl

theorem shared_setPosition (name : String) :
  ∃ position, (inst.setPosition name).value.shared = { inst.shared with position := position }
  := by
  rw [setPosition]
  split
  · apply shared_moveTo
  · use inst.position
    rfl

/-- A bar configuration for the bar sets the patterns, the position, the mode and what is
said about hiding. -/
theorem shared_applyBarConfig {config : Sway.BarConfig} (h : config.id = inst.barId)
    (revealed : Bool) :
  ∃ position,
    (inst.applyBarConfig config revealed).value.1.shared
      = { inst.shared with
          outputs := config.outputs
          position := position
          hiddenState := some config.hiddenState
          mode := inst.modeAfter (config.engagedMode revealed) }
  := by
  obtain ⟨position, hmoved⟩ := (inst.setOutputs config.outputs).shared_setPosition config.position
  use position
  rw [applyBarConfig, if_neg (not_not_intro h)]
  apply (shared_setMode _ _).trans
  generalize ((inst.setOutputs config.outputs).setPosition config.position).value = moved at hmoved
  change { moved.shared with
      hiddenState := some config.hiddenState
      mode := moved.shared.modeAfter (config.engagedMode revealed) } = _
  rw [hmoved]
  rfl

/-- A bar configuration is applied if it is for the bar. -/
theorem applied_applyBarConfig (config : Sway.BarConfig) (revealed : Bool) :
  (inst.applyBarConfig config revealed).value.2 = decide (config.id = inst.barId)
  := by
  rw [applyBarConfig]
  by_cases h : config.id = inst.barId
  · rw [if_neg (not_not_intro h), decide_eq_true h]
    rfl
  · rw [if_pos h, decide_eq_false h]
    rfl

/-- The mode that a held configuration asks for is engaged if the table has it. -/
theorem shared_refresh (sync : Sway.Sync) {config : Sway.BarConfig}
    (h : sync.config = some config) :
  (sync.refresh inst).value.shared
    = { inst.shared with mode := inst.modeAfter (config.engagedMode sync.revealed) }
  := by
  rw [Sway.Sync.refresh, h]
  apply shared_setMode

end StatusBar.Instance
