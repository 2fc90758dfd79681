import StatusBar.Proofs.Instance.Settled
import StatusBar.Proofs.Session.Standing
import StatusBar.Proofs.Session.Surfaces
import StatusBar.Proofs.Surface.Classes

/-!
# Style classes over runs

Over a run of events for all bars a surface keeps the style classes of the position and the
mode of its bar, and has no classes that it is not to have.  The classes of the output and
of the configuration are kept over all runs exactly where none of the two is called like a
position or a mode that bars can leave: `Watched.Loses` says that a run can take a class.
-/

namespace StatusBar

namespace Instance

/-- A change of all bars that leads each to what is wanted. -/
theorem onBars_leads {inst : Instance} {received : Recording} {good good' : Bar → Display → Prop}
    (hbars : Recorded inst.bars received good) {change : Bar → Step Bar}
    (hchange : Bar.Confined change)
    (hgood : ∀ bar display, good bar display →
      good' (change bar).value
        (display.receiveAll (requestsTo bar.output.name (change bar).log))) :
  (inst.onBars change).Leads received fun inst received => Recorded inst.bars received good'
  := by
  apply Logged.Leads.bind (hbars.each hchange hgood)
  intro bars received hbars
  apply Logged.Leads.pure hbars

end Instance

namespace Watched

open Session (Event)

variable {settings : Settings} {reset : ModifierReset}

/-- What a quiet step makes of the bars holds of them afterwards. -/
theorem recorded_quietly {watched : Watched} {event : Event} {step : Step Instance}
    {good : Bar → Display → Prop}
    (hevent : watched.session.step event = watched.session.quietly step)
    (h : step.Leads watched.kept fun inst received => Recorded inst.bars received good) :
  Recorded (watched.step event).inst.bars (watched.step event).received good
  := by
  have hquietly : (watched.session.quietly step).Leads watched.kept fun result received =>
      Recorded result.1.inst.bars received good := by
    apply Logged.Leads.bind h
    intro inst received hbars
    apply Logged.Leads.pure hbars
  rw [← hevent] at hquietly
  exact hquietly

/-- A step to another mode takes the class of the last mode from every surface. -/
theorem left_by_setMode {watched : Watched}
    (h : watched.inst.Meets settings (Bar.Follows settings) watched.received)
    (hlast : settings.modes.contains watched.inst.mode) {mode : String}
    (hknown : settings.modes.contains mode) (hother : mode ≠ watched.inst.mode) :
  Recorded (watched.step (.setMode mode)).inst.bars (watched.step (.setMode mode)).received
    fun _ display => Bar.modeClass watched.inst.mode ∉ display.classes
  := by
  have hknown' : watched.inst.settings.modes.contains mode := by
    rw [h.settings]
    exact hknown
  have hleft : (watched.inst.setMode mode).Leads watched.kept fun inst received =>
      Recorded inst.bars received
        fun _ display => Bar.modeClass watched.inst.mode ∉ display.classes := by
    rw [Instance.setMode_eq_onBars hknown' hother]
    apply Instance.onBars_leads (recorded_kept h.bars) (Bar.confined_changeMode _ _)
    intro bar display hbar
    have hengaged : settings.modes.engaged watched.inst.mode = watched.inst.mode := if_pos hlast
    have hnext : settings.modes.engaged mode = mode := if_pos hknown
    rw [Bar.classes_changeMode, h.settings, hbar.engages, hengaged, hnext]
    apply Bar.last_not_mem_swapClass
    intro hsame
    exact hother (Bar.modeClass_injective hsame)
  exact recorded_quietly rfl hleft

/-- A step to another position takes the class of the last position from every surface. -/
theorem left_by_setPosition {watched : Watched}
    (h : watched.inst.Meets settings (Bar.Follows settings) watched.received)
    (hopen : settings.position = none) (position : Position)
    (horientation : position.orientation = watched.inst.position.orientation)
    (hother : position ≠ watched.inst.position) :
  Recorded (watched.step (.setPosition position.name)).inst.bars
    (watched.step (.setPosition position.name)).received
    fun _ display => watched.inst.position.name ∉ display.classes
  := by
  have hopen' : watched.inst.settings.position = none := by
    rw [h.settings]
    exact hopen
  have hleft : (watched.inst.setPosition position.name).Leads watched.kept fun inst received =>
      Recorded inst.bars received
        fun _ display => watched.inst.position.name ∉ display.classes := by
    rw [Instance.setPosition, Position.ofName?_name]
    change (watched.inst.moveTo position).Leads _ _
    rw [Instance.moveTo_eq_onBars hopen' hother horientation]
    apply Instance.onBars_leads (recorded_kept h.bars) (Bar.confined_changePosition _ _)
    intro bar display hbar
    rw [Bar.classes_changePosition, hbar.stands]
    apply Bar.last_not_mem_swapClass
    intro hsame
    exact hother (Position.name_injective hsame)
  exact recorded_quietly rfl hleft

/-! ### Classes that are lost -/

theorem run_concat (watched : Watched) (events : List Event) (event : Event) :
  watched.run (events ++ [event]) = (watched.run events).step event
  := List.foldl_concat ..

/-- A run that puts a bar on an output, whatever the patterns were. -/
def onto (output : Output) : List Event :=
  [.setOutputs [], .addOutput output ⟨0, 0, 0, 0⟩]

/-- A bar on the output is without a class after some run. -/
def Loses (settings : Settings) (reset : ModifierReset) (output : Output) (name : String) :
    Prop :=
  ∃ events, (∀ event ∈ events, event.isShared)
    ∧ ∃ bar ∈ ((ofSettings settings reset).run events).inst.bars,
      bar.output = output ∧ name ∉ (((ofSettings settings reset).run events).display bar).classes

/-- A run loses a class for the output if it has a bar there, and its last event takes the
class from every surface. -/
theorem loses_of_last {output : Output} {name : String} (events : List Event) (last : Event)
    (hshared : ∀ event ∈ events ++ [last], event.isShared)
    (houtputs : (((ofSettings settings reset).run events).step last).inst.barOutputs
      = ((ofSettings settings reset).run (onto output)).inst.barOutputs)
    (hleft : Recorded (((ofSettings settings reset).run events).step last).inst.bars
      (((ofSettings settings reset).run events).step last).received
      fun _ display => name ∉ display.classes) :
  Loses settings reset output name
  := by
  have hbar : output ∈ (((ofSettings settings reset).run events).step last).inst.barOutputs := by
    rw [houtputs]
    apply List.mem_singleton_self
  obtain ⟨bar, hbar, houtput⟩ := List.mem_map.mp hbar
  use events ++ [last], hshared
  rw [run_concat]
  use bar, hbar, houtput
  apply hleft.good bar hbar

/-- The class of every mode can be left. -/
theorem loses_mode (hmodes : settings.Resolved) {mode : String}
    (hknown : settings.modes.contains mode) (output : Output) :
  Loses settings reset output (Bar.modeClass mode)
  := by
  obtain ⟨other, hother, hne⟩ : ∃ other, settings.modes.contains other ∧ other ≠ mode := by
    by_cases hinvisible : mode = Mode.invisibleName
    · use Mode.hideName, hmodes.contains_hide
      rw [hinvisible]
      decide
    · exact ⟨Mode.invisibleName, hmodes.contains_invisible, Ne.symm hinvisible⟩
  have hshared : ∀ event ∈ onto output ++ [.setMode mode] ++ [.setMode other], event.isShared := by
    simp [onto, Event.isShared]
  have hknown' :
      ((ofSettings settings reset).run (onto output)).inst.settings.modes.contains mode := by
    rw [inst_run, (Session.becomes_run _ _).settings]
    exact hknown
  -- The mode has to be engaged first, since a new bar may be in another one.
  have hmode :
      ((ofSettings settings reset).run (onto output ++ [.setMode mode])).inst.mode = mode :=
    Instance.mode_setMode hknown'
  apply loses_of_last _ _ hshared
  · apply (Instance.barOutputs_setMode _ other).trans
    apply Instance.barOutputs_setMode
  · have hleft := left_by_setMode
      (meets_follows settings reset _ (List.forall_mem_append.mp hshared).1)
    rw [hmode] at hleft
    apply hleft hknown hother hne

/-- The class of the top and of the bottom can be left where the settings leave the position
open. -/
theorem loses_position (hopen : settings.position = none) (position other : Position)
    (hposition : position.orientation = .horizontal) (hother : other.orientation = .horizontal)
    (hne : other ≠ position) (output : Output) :
  Loses settings reset output position.name
  := by
  have hshared : ∀ event ∈ onto output ++ [.setPosition position.name] ++
      [.setPosition other.name], event.isShared := by
    simp [onto, Event.isShared]
  have hopen' : ((ofSettings settings reset).run (onto output)).inst.settings.position = none := by
    rw [inst_run, (Session.becomes_run _ _).settings]
    exact hopen
  have horientation :
      ((ofSettings settings reset).run (onto output)).inst.position.orientation = .horizontal := by
    rw [inst_run, Session.orientation_run, Settings.initialPosition, hopen]
    rfl
  -- The run goes to the position first: it may start at the other one.
  have hstands :
      ((ofSettings settings reset).run (onto output ++ [.setPosition position.name])).inst.position
        = position :=
    Instance.position_setPosition hopen' (hposition.trans horientation.symm)
  apply loses_of_last _ _ hshared
  · apply (Instance.barOutputs_setPosition _ other.name).trans
    apply Instance.barOutputs_setPosition
  · have hleft := left_by_setPosition
      (meets_follows settings reset _ (List.forall_mem_append.mp hshared).1) hopen other
    rw [hstands] at hleft
    apply hleft (hother.trans hposition.symm) hne

/-- Every class that comes and goes can be lost, whoever else it belongs to. -/
theorem loses_of_isPassing (hmodes : settings.Resolved) {name : String}
    (h : settings.IsPassing name) (output : Output) :
  Loses settings reset output name
  := by
  rcases h with ⟨hopen, rfl | rfl⟩ | ⟨mode, hknown, rfl⟩
  · apply loses_position hopen .top .bottom rfl rfl (by decide)
  · apply loses_position hopen .bottom .top rfl rfl (by decide)
  · apply loses_mode hmodes hknown

/-! ### Classes over runs -/

/-- After every run a surface has the classes of the position and the mode of its bar, no
classes but those that it is to have, and of these all that do not come and go. -/
theorem classes_run (hmodes : settings.Resolved) (events : List Event)
    (hshared : ∀ event ∈ events, event.isShared) :
  let watched := (ofSettings settings reset).run events
  ∀ bar ∈ watched.inst.bars,
    bar.stateClasses ⊆ (watched.display bar).classes
      ∧ (watched.display bar).classes ⊆ bar.styleClasses settings
      ∧ ∀ own ∈ bar.ownClasses settings,
        ¬ settings.IsPassing own → own ∈ (watched.display bar).classes
  := by
  intro watched bar hbar
  have hdefault : settings.modes.contains Mode.defaultName := hmodes.contains_preset (by decide)
  have horientation : watched.inst.position.orientation = settings.initialPosition.orientation := by
    rw [inst_run]
    apply Session.orientation_run
  obtain ⟨hdressed, hmode⟩ :=
    (meets_ofSettings (Bar.maintained_styled hdefault) reset events hshared).bars.good bar hbar
  have hplaced := hdressed.placed
  rw [← hdressed.stands] at hplaced
  refine ⟨?_, ?_, hdressed.own horientation⟩
  · intro name hname
    rcases Finset.mem_insert.mp hname with rfl | hname
    · exact hplaced
    · rw [Finset.mem_singleton.mp hname]
      exact hmode
  · intro name hname
    apply Finset.mem_union.mpr
    rcases hdressed.only name hname with hown | hposition | hmode
    · exact .inl hown
    · rw [← hdressed.stands] at hposition
      right
      rw [hposition]
      apply Finset.mem_insert_self
    · right
      rw [hmode]
      apply Finset.mem_insert_of_mem (Finset.mem_singleton_self _)

/-- Where all runs keep the classes on an output, what belongs to its bars does not come and
go. -/
theorem not_isPassing_of_kept (hmodes : settings.Resolved) {output name : String}
    (hkept : ∀ events : List Event, (∀ event ∈ events, event.isShared) →
      let watched := (ofSettings settings reset).run events
      ∀ bar ∈ watched.inst.bars, bar.output.name = output →
        (watched.display bar).classes = bar.styleClasses settings)
    (hown : ∀ bar : Bar, bar.output.name = output → name ∈ bar.ownClasses settings) :
  ¬ settings.IsPassing name
  := by
  intro hpassing
  obtain ⟨events, hshared, bar, hbar, houtput, hlost⟩ :=
    loses_of_isPassing hmodes hpassing ⟨output, ""⟩
  have hname : bar.output.name = output := by
    rw [houtput]
  apply hlost
  rw [hkept events hshared bar hbar hname]
  apply Finset.mem_union_left _ (hown bar hname)

/-- All runs keep the style classes of the bars on an output, exactly as they are to be, just
in case neither the output nor the configuration is called like a position or a mode that bars
can leave.  In any case a class that is missing is one of these two, and there are no classes
too many. -/
theorem classes_kept_iff (hmodes : settings.Resolved) (reset : ModifierReset) (output : String) :
  ((∀ events : List Event, (∀ event ∈ events, event.isShared) →
      let watched := (ofSettings settings reset).run events
      ∀ bar ∈ watched.inst.bars, bar.output.name = output →
        (watched.display bar).classes = bar.styleClasses settings)
    ↔ ¬ settings.IsPassing output
      ∧ ∀ name, settings.name = some name → ¬ settings.IsPassing name)
  ∧ ∀ events : List Event, (∀ event ∈ events, event.isShared) →
    let watched := (ofSettings settings reset).run events
    ∀ bar ∈ watched.inst.bars,
      bar.stateClasses ⊆ (watched.display bar).classes
        ∧ (watched.display bar).classes ⊆ bar.styleClasses settings
        ∧ ∀ own ∈ bar.ownClasses settings,
          ¬ settings.IsPassing own → own ∈ (watched.display bar).classes
  := by
  refine ⟨⟨?kept, ?stay⟩, classes_run hmodes⟩
  case kept =>
    intro hkept
    constructor
    · apply not_isPassing_of_kept hmodes hkept
      intro bar hname
      apply Bar.mem_ownClasses.mpr (.inl hname.symm)
    · intro name hsettings
      apply not_isPassing_of_kept hmodes hkept
      intro bar _
      apply Bar.mem_ownClasses.mpr (.inr hsettings)
  case stay =>
    rintro ⟨houtput, hname⟩ events hshared watched bar hbar rfl
    obtain ⟨hstate, hall, hown⟩ := classes_run hmodes events hshared bar hbar
    apply Finset.Subset.antisymm hall
    apply Finset.union_subset _ hstate
    intro own hmem
    apply hown own hmem
    rcases Bar.mem_ownClasses.mp hmem with rfl | hsettings
    · exact houtput
    · apply hname own hsettings

/-- Settings with a style class of the user's. -/
def panel : Settings :=
  { Settings.initial with name := some "panel" }

/-- A run that moves a bar and hides it. -/
def movedAndHidden : List Event :=
  [.addOutput ⟨"DP-1", ""⟩ ⟨0, 0, 1920, 1080⟩, .setPosition "bottom", .setVisible false]

/-- A class of the user's that is called like no position and no mode is kept. -/
theorem classes_kept_iff_panel :
  let watched := (ofSettings panel).run movedAndHidden
  panel.Resolved
    ∧ (¬ panel.IsPassing "DP-1" ∧ ∀ name, panel.name = some name → ¬ panel.IsPassing name)
    ∧ watched.inst.bars.map (·.output.name) = ["DP-1"]
    ∧ ∀ bar ∈ watched.inst.bars,
      (watched.display bar).classes = {"DP-1", "panel", "bottom", "mode-invisible"}
  := by
  intro watched
  have hmodes : panel.Resolved := Settings.resolved_initial
  have hstay : ¬ panel.IsPassing "DP-1"
      ∧ ∀ name, panel.name = some name → ¬ panel.IsPassing name := by
    constructor
    · apply Settings.not_isPassing (by decide) (by decide) (by decide)
    · rintro _ ⟨rfl⟩
      apply Settings.not_isPassing (by decide) (by decide) (by decide)
  have hkept := (classes_kept_iff hmodes panel.modifierReset "DP-1").1.mpr hstay movedAndHidden
    (by decide)
  have hstyle : ∀ bar ∈ watched.inst.bars, bar.output.name = "DP-1"
      ∧ bar.styleClasses panel = {"DP-1", "panel", "bottom", "mode-invisible"} := by
    decide
  use hmodes, hstay, by decide
  intro bar hbar
  obtain ⟨hname, hclasses⟩ := hstyle bar hbar
  rw [← hclasses]
  apply hkept bar hbar hname

/-- A document whose name for the bars is also a position. -/
def namedTop : Document :=
  .object [("name", .string "top")]

/-- A run that moves a bar away from the top. -/
def moved : List Event :=
  [.addOutput ⟨"DP-1", ""⟩ ⟨0, 0, 1920, 1080⟩, .setPosition "bottom"]

/-- A move can take the class of the user's from a bar. -/
theorem name_lost :
  ¬ ∀ (doc : Document) (events : List Event),
    (∀ event ∈ events, event.isShared) →
    let settings := (Config.ofDocument doc).settings
    let watched := (ofSettings settings).run events
    ∀ bar ∈ watched.inst.bars, (watched.display bar).classes = bar.styleClasses settings
  := by
  intro h
  have hbars := h namedTop moved (by decide)
  revert hbars
  decide

end Watched

end StatusBar
