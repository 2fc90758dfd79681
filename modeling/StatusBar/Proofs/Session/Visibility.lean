import StatusBar.Proofs.Instance.Shared
import StatusBar.Proofs.Session.Surfaces

/-!
# Showing and hiding

A request for visibility is always noted.  The bars follow it where the mode that it wants
engaged is known, which the mode of hidden bars always is.  An initial mode that the mode
table lacks engages the default on new bars, but a request to show asks for it by its name
and is refused: bars that were hidden stay hidden.
-/

namespace StatusBar

/-- The mode that bars of that visibility are to engage. -/
def Settings.modeWhen (settings : Settings) (visible : Bool) : String :=
  if visible then
    if settings.modes.contains settings.initialMode then settings.initialMode
    else Mode.defaultName
  else
    Mode.invisibleName

namespace Settings

variable {settings : Settings}

/-- The wanted mode is what a bar engages that is asked for it. -/
theorem engaged_modeFor (hmodes : settings.Resolved) (visible : Bool) :
  settings.modes.engaged (Instance.modeFor settings visible) = settings.modeWhen visible
  := by
  cases visible with
  | false => apply if_pos hmodes.contains_invisible
  | true => rfl

/-- Only the mode of shown bars may be unknown. -/
theorem contains_modeFor (hmodes : settings.Resolved) (visible : Bool) :
  settings.modes.contains (Instance.modeFor settings visible)
    ↔ visible = false ∨ settings.modes.contains settings.initialMode
  := by
  cases visible with
  | false => exact iff_of_true hmodes.contains_invisible (.inl rfl)
  | true => exact (or_iff_right nofun).symm

end Settings

namespace Instance

variable (inst : Instance)

theorem settings_setVisible (visible : Bool) :
  (inst.setVisible visible).value.settings = inst.settings
  := by
  have h := shared_setMode { inst with visible := visible } (modeFor inst.settings visible)
  apply congrArg Instance.settings h

theorem visible_setVisible (visible : Bool) :
  (inst.setVisible visible).value.visible = visible
  := congrArg Instance.visible (shared_setMode ..)

theorem mode_setVisible (visible : Bool) :
  (inst.setVisible visible).value.mode = inst.modeAfter (modeFor inst.settings visible)
  := congrArg Instance.mode (shared_setMode ..)

/-- A mode that the table lacks changes nothing. -/
theorem value_setMode_unknown {mode : String} (h : ¬ inst.settings.modes.contains mode) :
  (inst.setMode mode).value = inst
  := by
  rw [setMode, if_pos]
  · rfl
  · simpa using h

/-- Every bar lives through a change of mode. -/
theorem length_bars_setMode (mode : String) :
  (inst.setMode mode).value.bars.length = inst.bars.length
  := by
  rw [setMode]
  split
  · rfl
  · split
    · rfl
    · rw [onBars, Logged.value_bind, Logged.value_each]
      apply List.length_map

end Instance

namespace Session

/-- Whether an event is that an output comes or goes. -/
def Event.isOutput : Event → Bool
  | .addOutput _ _ => true
  | .removeOutput _ => true
  | _ => false

/-- Outputs that come and go change nothing that the bars share. -/
theorem shared_run_outputs (session : Session) {events : List Event}
    (houtputs : ∀ event ∈ events, event.isOutput) :
  (session.run events).value.inst.shared = session.inst.shared
  := by
  apply run_induction session (fun _ after => after.inst.shared = session.inst.shared) rfl _ houtputs
  intro events event _ hevent ih
  rw [← ih]
  cases event with
  | addOutput output monitor => apply Instance.shared_addOutput
  | removeOutput name => apply Instance.shared_removeOutput
  | _ => cases hevent

variable {settings : Settings} {reset : ModifierReset}

/-- A request for visibility is honoured where the mode that it asks for is known. -/
theorem setVisible_engages (hmodes : settings.Resolved) {events : List Event}
    (hshared : ∀ event ∈ events, event.isShared) {visible : Bool}
    (hknown : settings.modes.contains (Instance.modeFor settings visible)) :
  ∀ bar ∈ (((ofSettings settings reset).run events).value.inst.setVisible visible).value.bars,
    bar.mode = settings.modeWhen visible
  := by
  have hsettings := (engages_run settings reset events hshared).1
  have hevents : ∀ event ∈ events ++ [.setVisible visible], event.isShared :=
    List.forall_mem_append.mpr ⟨hshared, List.forall_mem_singleton.mpr rfl⟩
  obtain ⟨-, hrun⟩ := engages_run settings reset _ hevents
  rw [value_run_concat] at hrun
  intro bar hbar
  rw [hrun bar hbar, ← Settings.engaged_modeFor hmodes]
  congr 1
  apply (Instance.mode_setVisible ..).trans
  rw [Instance.modeAfter, hsettings, if_pos hknown]

/-- A request for visibility that asks for an unknown mode leaves the bars. -/
theorem setVisible_refused {events : List Event} (hshared : ∀ event ∈ events, event.isShared)
    {visible : Bool}
    (hunknown : ¬ settings.modes.contains (Instance.modeFor settings visible)) :
  let before := ((ofSettings settings reset).run events).value
  (before.inst.setVisible visible).value.bars = before.inst.bars
  := by
  intro before
  have hsettings : before.inst.settings = settings := (engages_run settings reset events hshared).1
  rw [← hsettings] at hunknown
  have hinst := Instance.value_setMode_unknown { before.inst with visible := visible } hunknown
  apply congrArg Instance.bars hinst

/-- Showing hidden bars engages the initial mode, if it is known. -/
theorem modes_hide_show (hmodes : settings.Resolved) {events : List Event}
    (hshared : ∀ event ∈ events, event.isShared) :
  let before := ((ofSettings settings reset).run events).value
  let shown := (before.run [.setVisible false, .setVisible true]).value
  shown.inst.bars.map (·.mode)
    = List.replicate before.inst.bars.length
        (if settings.modes.contains settings.initialMode then settings.initialMode
          else Mode.invisibleName)
  := by
  intro before shown
  have hsettings : before.inst.settings = settings := (engages_run settings reset events hshared).1
  have hlength : shown.inst.bars.length = before.inst.bars.length :=
    (Instance.length_bars_setMode ..).trans (Instance.length_bars_setMode ..)
  have hmode : shown.inst.mode = if settings.modes.contains settings.initialMode then
      settings.initialMode else Mode.invisibleName := by
    have hhidden : (before.inst.setVisible false).value.mode = Mode.invisibleName := by
      rw [Instance.mode_setVisible, Instance.modeAfter, hsettings]
      apply if_pos hmodes.contains_invisible
    have hshown : shown.inst.mode = (before.inst.setVisible false).value.modeAfter
        (Instance.modeFor (before.inst.setVisible false).value.settings true) :=
      Instance.mode_setVisible ..
    rw [hshown, Instance.modeAfter, Instance.settings_setVisible, hsettings, hhidden]
    rfl
  have hknown : settings.modes.contains shown.inst.mode := by
    rw [hmode]
    split
    case isTrue hinitial => exact hinitial
    case isFalse => exact hmodes.contains_invisible
  have hevents : ∀ event ∈ events ++ [.setVisible false, .setVisible true], event.isShared :=
    List.forall_mem_append.mpr ⟨hshared, by decide⟩
  obtain ⟨-, hbars⟩ := engages_run settings reset _ hevents
  rw [value_run_append] at hbars
  rw [← hlength]
  apply List.map_eq_replicate_iff.mpr
  intro bar hbar
  rw [hbars bar hbar, ModeTable.engaged, if_pos hknown, hmode]

/-- Bars that nothing but outputs happened to engage the initial mode, or the default. -/
theorem modes_created (hstart : settings.startHidden = false) {events : List Event}
    (hshared : ∀ event ∈ events, event.isShared) (houtputs : ∀ event ∈ events, event.isOutput) :
  let created := ((ofSettings settings reset).run events).value.inst
  created.bars.map (·.mode)
    = List.replicate created.bars.length
        (if settings.modes.contains settings.initialMode then settings.initialMode
          else Mode.defaultName)
  := by
  intro created
  have hmode : created.mode = settings.initialMode := by
    apply (congrArg Instance.mode (shared_run_outputs (ofSettings settings reset) houtputs)).trans
    change Instance.modeFor settings (!settings.startHidden) = _
    rw [hstart]
    rfl
  apply List.map_eq_replicate_iff.mpr
  intro bar hbar
  rw [(engages_run settings reset events hshared).2 bar hbar, hmode]
  rfl

/-- Bars that nothing but outputs happened to come back from hiding exactly when the initial
mode is known. -/
theorem modes_hide_show_iff (hmodes : settings.Resolved) (hstart : settings.startHidden = false)
    {events : List Event} (hshared : ∀ event ∈ events, event.isShared)
    (houtputs : ∀ event ∈ events, event.isOutput) :
  let before := ((ofSettings settings reset).run events).value
  let shown := (before.run [.setVisible false, .setVisible true]).value
  shown.inst.bars.map (·.mode) = before.inst.bars.map (·.mode)
    ↔ settings.modes.contains settings.initialMode ∨ before.inst.bars = []
  := by
  intro before shown
  have hshown : shown.inst.bars.map (·.mode) = List.replicate before.inst.bars.length _ :=
    modes_hide_show hmodes hshared
  have hcreated : before.inst.bars.map (·.mode) = List.replicate before.inst.bars.length _ :=
    modes_created hstart hshared houtputs
  rw [hshown, hcreated, List.replicate_inj]
  by_cases hinitial : settings.modes.contains settings.initialMode
  · simp [hinitial]
  · simp [hinitial, Mode.invisibleName, Mode.defaultName]

/-- A request for visibility is noted, and `toggle` asks for the other one.  The bars
engage the wanted mode exactly when it asks to hide them, or the initial mode is known, or
they are in the default mode; else they stay as they are.  Bars that nothing but outputs
happened to come back from hiding exactly when the initial mode is known. -/
theorem visibility_honoured_iff (hmodes : settings.Resolved) (reset : ModifierReset)
    (events : List Event) (hshared : ∀ event ∈ events, event.isShared) (visible : Bool) :
  let before := ((ofSettings settings reset).run events).value
  let after := (before.step (.setVisible visible)).value.1
  let shown := (before.run [.setVisible false, .setVisible true]).value
  after.inst.visible = visible
    ∧ before.step .toggle = before.step (.setVisible !before.inst.visible)
    ∧ ((∀ bar ∈ after.inst.bars, bar.mode = settings.modeWhen visible)
      ↔ visible = false ∨ settings.modes.contains settings.initialMode
        ∨ ∀ bar ∈ before.inst.bars, bar.mode = Mode.defaultName)
    ∧ (visible = true → ¬ settings.modes.contains settings.initialMode →
      after.inst.bars = before.inst.bars)
    ∧ (settings.startHidden = false → (∀ event ∈ events, event.isOutput) →
      (shown.inst.bars.map (·.mode) = before.inst.bars.map (·.mode)
        ↔ settings.modes.contains settings.initialMode ∨ before.inst.bars = []))
  := by
  intro before after shown
  have hrefused : ¬ settings.modes.contains (Instance.modeFor settings visible) →
      after.inst.bars = before.inst.bars := setVisible_refused hshared
  use Instance.visible_setVisible before.inst visible, rfl
  constructor
  · rw [← or_assoc, ← Settings.contains_modeFor hmodes visible]
    by_cases hknown : settings.modes.contains (Instance.modeFor settings visible)
    · apply iff_of_true
      · apply setVisible_engages hmodes hshared hknown
      · exact .inl hknown
    · rw [or_iff_right hknown, hrefused hknown, ← Settings.engaged_modeFor hmodes,
        ModeTable.engaged, if_neg hknown]
  · constructor
    · rintro rfl hinitial
      apply hrefused hinitial
    · intro hstart houtputs
      apply modes_hide_show_iff hmodes hstart hshared houtputs

/-- A document whose initial mode is in no mode table. -/
def unknownMode : Document :=
  .object [("mode", .string "bogus")]

/-- A run after which the bar of an output is hidden. -/
def hiddenBar : List Event :=
  [.addOutput ⟨"DP-1", ""⟩ ⟨0, 0, 1920, 1080⟩, .setVisible false]

/-- The bar of an unknown initial mode cannot be shown again. -/
theorem visibility_honoured_iff_unknownMode :
  let settings := (Config.ofDocument unknownMode).settings
  let before := ((ofSettings settings).run hiddenBar).value
  let after := (before.step (.setVisible true)).value.1
  settings.Resolved
    ∧ (∀ event ∈ hiddenBar, event.isShared)
    ∧ after.inst.visible = true
    ∧ ¬ ∀ bar ∈ after.inst.bars, bar.mode = settings.modeWhen true
  := by
  intro settings before after
  have hmodes : settings.Resolved := Settings.resolved_ofDocument unknownMode
  have hshared : ∀ event ∈ hiddenBar, event.isShared := by decide
  obtain ⟨hvisible, -, hengages, -⟩ := visibility_honoured_iff hmodes _ hiddenBar hshared true
  use hmodes, hshared, hvisible
  intro hall
  rcases hengages.mp hall with htrue | hinitial | hdefault
  · cases htrue
  · revert hinitial
    decide
  · revert hdefault
    decide

/-- Asking to show the bars does not always engage a mode that shows them. -/
theorem hidden_stay_hidden :
  ¬ ∀ (doc : Document) (events : List Event),
    (∀ event ∈ events, event.isShared) →
    let settings := (Config.ofDocument doc).settings
    let before := ((ofSettings settings).run events).value
    ∀ bar ∈ (before.inst.setVisible true).value.bars, bar.mode = settings.modeWhen true
  := by
  intro h
  have hbars := h unknownMode hiddenBar (by decide)
  revert hbars
  decide

end Session

end StatusBar
