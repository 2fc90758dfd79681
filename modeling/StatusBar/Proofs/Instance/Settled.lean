import Mathlib.Data.List.Basic
import StatusBar.Proofs.Instance.Shared
import StatusBar.Proofs.Surface.Recording

/-!
# Instances with nothing left to do

An operation may find an instance as it would leave it.  Then it changes nothing and asks
nothing of any surface: it `Rests`.  `Instance.Applied` says when applying a bar
configuration rests, and it holds of every instance that the configuration was applied to.
-/

namespace StatusBar

/-- A step comes to this result without a request to any surface. -/
structure Logged.Rests {α : Type} (step : Logged Effect α) (result : α) : Prop where
  value : step.value = result
  requests : ∀ name, requestsTo name step.log = []

namespace Logged.Rests

variable {α β : Type}

theorem pure (result : α) :
  (Pure.pure result : Logged Effect α).Rests result
  := ⟨rfl, fun _ => rfl⟩

/-- A warning is no request. -/
theorem warning (cause : Warning) (result : α) :
  (Logged.withNotes [Effect.warning cause] result).Rests result
  := ⟨rfl, fun _ => rfl⟩

theorem bind {first : Logged Effect α} {next : α → Logged Effect β} {mid : α} {result : β}
    (hfirst : first.Rests mid) (hnext : (next mid).Rests result) :
  (first >>= next).Rests result
  := by
  obtain ⟨rfl, hfirst⟩ := hfirst
  constructor
  · exact hnext.value
  · intro name
    rw [log_bind, requestsTo_append, hfirst name, hnext.requests name, List.append_nil]

end Logged.Rests

/-- Two steps come to the same result, with the same requests to every surface. -/
structure Logged.Alike {α : Type} (step step' : Logged Effect α) : Prop where
  value : step.value = step'.value
  requests : ∀ name, requestsTo name step.log = requestsTo name step'.log

namespace Logged

variable {α β : Type} {step step' step'' : Logged Effect α}

theorem Alike.refl (step : Logged Effect α) :
  step.Alike step
  := ⟨rfl, fun _ => rfl⟩

theorem Alike.trans (h : step.Alike step') (h' : step'.Alike step'') :
  step.Alike step''
  := ⟨h.value.trans h'.value, fun name => (h.requests name).trans (h'.requests name)⟩

/-- Steps that are alike after the same first one are alike with it. -/
theorem Alike.bind {next next' : α → Logged Effect β}
    (h : (next step.value).Alike (next' step.value)) :
  (step >>= next).Alike (step >>= next')
  := by
  constructor
  · exact h.value
  · intro name
    rw [log_bind, log_bind, requestsTo_append, requestsTo_append, h.requests]

/-- A step that rests makes no difference to the next one. -/
theorem Rests.alike_bind {result : α} (h : step.Rests result) {next : α → Logged Effect β} :
  (step >>= next).Alike (next result)
  := by
  obtain ⟨rfl, hrequests⟩ := h
  constructor
  · rfl
  · intro name
    rw [log_bind, requestsTo_append, hrequests name, List.nil_append]

end Logged

namespace Instance

/-! ### The outputs of the bars -/

/-- The outputs that have a bar, in the order in which the bars were created. -/
def barOutputs (inst : Instance) : List Output :=
  inst.bars.map (·.output)

variable (inst : Instance)

/-- No change moves a bar to another output. -/
theorem barOutputs_onBars {change : Bar → Step Bar} (hchange : Bar.Confined change) :
  (inst.onBars change).value.barOutputs = inst.barOutputs
  := by
  rw [onBars, Logged.value_bind, Logged.value_each]
  apply (List.map_map ..).trans
  apply List.map_congr_left
  intro bar _
  apply hchange.output

theorem barOutputs_setMode (mode : String) :
  (inst.setMode mode).value.barOutputs = inst.barOutputs
  := by
  rw [setMode]
  split
  · rfl
  · split
    · rfl
    · apply barOutputs_onBars _ (Bar.confined_changeMode ..)

theorem barOutputs_moveTo (position : Position) :
  (inst.moveTo position).value.barOutputs = inst.barOutputs
  := by
  rw [moveTo]
  split
  · rfl
  · split
    · rfl
    · apply barOutputs_onBars _ (Bar.confined_changePosition ..)

theorem barOutputs_setPosition (name : String) :
  (inst.setPosition name).value.barOutputs = inst.barOutputs
  := by
  rw [setPosition]
  split
  · apply barOutputs_moveTo
  · rfl

/-! ### Operations that rest -/

variable {inst}

/-- To engage a mode rests where the instance engages it, or the table lacks it. -/
theorem setMode_rests {mode : String} (h : inst.modeAfter mode = inst.mode) :
  (inst.setMode mode).Rests inst
  := by
  rw [setMode]
  split
  case isTrue => apply Logged.Rests.warning
  case isFalse hcontains =>
    rw [modeAfter, if_pos (by simpa using hcontains)] at h
    rw [if_pos h]
    apply Logged.Rests.pure

/-- An instance that was asked to engage a mode would do nothing on being asked again. -/
theorem modeAfter_setMode (inst : Instance) (mode : String) :
  (inst.setMode mode).value.modeAfter mode = (inst.setMode mode).value.mode
  := by
  have hshared := inst.shared_setMode mode
  have hsettings : (inst.setMode mode).value.settings = inst.settings := by
    apply congrArg Instance.settings hshared
  have hmode : (inst.setMode mode).value.mode = inst.modeAfter mode :=
    congrArg Instance.mode hshared
  rw [modeAfter, hsettings, hmode, modeAfter]
  split
  case isTrue => rfl
  case isFalse => rfl

/-- The instance does not move to a position: the settings fix one, it stands there, or its
bars would turn. -/
def Stays (inst : Instance) (position : Position) : Prop :=
  inst.settings.position.isSome ∨ position = inst.position
    ∨ position.orientation ≠ inst.position.orientation

theorem Stays.moveTo_rests {position : Position} (h : inst.Stays position) :
  (inst.moveTo position).Rests inst
  := by
  rw [moveTo]
  split
  case isTrue => apply Logged.Rests.pure
  case isFalse hmoves =>
    rw [if_pos]
    · apply Logged.Rests.warning
    · rcases h with hfixed | hsame | hturns
      · exact absurd (Bool.or_eq_true_iff.mpr (.inl hfixed)) hmoves
      · exact absurd (Bool.or_eq_true_iff.mpr (.inr (decide_eq_true hsame))) hmoves
      · exact hturns

theorem stays_moveTo (inst : Instance) (position : Position) :
  (inst.moveTo position).value.Stays position
  := by
  rw [moveTo]
  split
  case isTrue hstays =>
    rcases Bool.or_eq_true_iff.mp hstays with hfixed | hsame
    · exact .inl hfixed
    · exact .inr (.inl (of_decide_eq_true hsame))
  case isFalse =>
    split
    case isTrue hturns => exact .inr (.inr hturns)
    case isFalse => exact .inr (.inl rfl)

/-- The instance does not move to the position of that name. -/
def StaysAt (inst : Instance) (name : String) : Prop :=
  ∀ position, Position.ofName? name = some position → inst.Stays position

theorem StaysAt.setPosition_rests {name : String} (h : inst.StaysAt name) :
  (inst.setPosition name).Rests inst
  := by
  rw [setPosition]
  split
  case h_1 position hname => apply (h position hname).moveTo_rests
  case h_2 => apply Logged.Rests.pure

/-- Whether an instance moves is a matter of its settings and its position. -/
theorem StaysAt.congr {inst' : Instance} {name : String} (h : inst.StaysAt name)
    (hsettings : inst'.settings = inst.settings) (hposition : inst'.position = inst.position) :
  inst'.StaysAt name
  := by
  intro position hname
  rw [Stays, hsettings, hposition]
  apply h position hname

theorem staysAt_setPosition (inst : Instance) (name : String) :
  (inst.setPosition name).value.StaysAt name
  := by
  intro position hname
  rw [setPosition, hname]
  apply stays_moveTo

/-- The patterns of an instance are in force on its bars. -/
theorem setOutputs_eq_self {patterns : List String} (houtputs : inst.outputs = patterns)
    (hbars : ∀ output ∈ inst.barOutputs, output.matchesPatterns patterns) :
  inst.setOutputs patterns = inst
  := by
  have hkept : inst.bars.filter (·.output.matchesPatterns patterns) = inst.bars := by
    apply List.filter_eq_self.mpr
    intro bar hbar
    apply hbars _ (List.mem_map_of_mem hbar)
  rw [setOutputs, hkept, ← houtputs]

/-! ### Bar configurations -/

/-- The instance is as a bar configuration leaves it. -/
structure Applied (inst : Instance) (config : Sway.BarConfig) (revealed : Bool) : Prop where
  id : config.id = inst.barId
  outputs : inst.outputs = config.outputs
  bars : ∀ output ∈ inst.barOutputs, output.matchesPatterns config.outputs
  position : inst.StaysAt config.position
  hiddenState : inst.hiddenState = some config.hiddenState
  mode : inst.modeAfter (config.engagedMode revealed) = inst.mode

variable {config : Sway.BarConfig} {revealed : Bool}

theorem Applied.rests (h : inst.Applied config revealed) :
  (inst.applyBarConfig config revealed).Rests (inst, true)
  := by
  have hidden : { inst with hiddenState := some config.hiddenState } = inst := by
    rw [← h.hiddenState]
  rw [applyBarConfig, if_neg (not_not_intro h.id), setOutputs_eq_self h.outputs h.bars]
  apply Logged.Rests.bind h.position.setPosition_rests
  rw [hidden]
  apply Logged.Rests.bind (setMode_rests h.mode)
  apply Logged.Rests.pure

/-- A configuration that was applied is applied. -/
theorem applied_after_applyBarConfig (h : config.id = inst.barId) (revealed : Bool) :
  (inst.applyBarConfig config revealed).value.1.Applied config revealed
  := by
  obtain ⟨position, hshared⟩ := inst.shared_applyBarConfig h revealed
  let moved := ((inst.setOutputs config.outputs).setPosition config.position).value
  have hvalue : (inst.applyBarConfig config revealed).value.1
      = (setMode { moved with hiddenState := some config.hiddenState }
          (config.engagedMode revealed)).value := by
    rw [applyBarConfig, if_neg (not_not_intro h)]
    rfl
  constructor
  case id => exact h.trans (congrArg Instance.barId hshared).symm
  case outputs => exact congrArg Instance.outputs hshared
  case bars =>
    have houtputs : (inst.applyBarConfig config revealed).value.1.barOutputs
        = (inst.setOutputs config.outputs).barOutputs := by
      rw [hvalue, barOutputs_setMode]
      apply barOutputs_setPosition
    rw [houtputs]
    intro output houtput
    obtain ⟨bar, hbar, rfl⟩ := List.mem_map.mp houtput
    apply List.of_mem_filter hbar
  case position =>
    have hkept := shared_setMode { moved with hiddenState := some config.hiddenState }
      (config.engagedMode revealed)
    have hstays : moved.StaysAt config.position := staysAt_setPosition _ _
    rw [hvalue]
    apply hstays.congr
    · apply congrArg Instance.settings hkept
    · apply congrArg Instance.position hkept
  case hiddenState => exact congrArg Instance.hiddenState hshared
  case mode =>
    rw [hvalue]
    apply modeAfter_setMode

end Instance

end StatusBar
