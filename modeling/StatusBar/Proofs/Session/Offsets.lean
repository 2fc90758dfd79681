import StatusBar.Proofs.Session.Commuting
import StatusBar.Proofs.Session.Sizes

/-!
# Corners of bars

A bar keeps its corner beside the edge, the monitor and the size that the corner is computed
from.  The corner is computed when the toolkit settles on a size, and when the monitor changes;
it is not when the bar moves to another edge.  So it is the right one from the first such event
on, as long as the bar does not move.
-/

namespace StatusBar

/-- The known corner of a bar is that of its edge, monitor and size. -/
def Bar.Fresh (settings : Settings) (bar : Bar) : Prop :=
  bar.offset = StatusBar.offset bar.position settings.margins bar.monitor bar.size

instance (settings : Settings) (bar : Bar) : Decidable (bar.Fresh settings) :=
  inferInstanceAs (Decidable (_ = _))

/-- The second bar is on the output of the first, and at its edge if the output has that name. -/
structure Bar.Resting (name : String) (bar bar' : Bar) : Prop where
  output : bar'.output = bar.output
  position : bar.output.name = name → bar'.position = bar.position

theorem Bar.Resting.refl (name : String) (bar : Bar) :
  bar.Resting name bar
  := ⟨rfl, fun _ => rfl⟩

theorem Bar.Resting.trans {name : String} {bar bar' bar'' : Bar} (h : bar.Resting name bar')
    (h' : bar'.Resting name bar'') :
  bar.Resting name bar''
  := by
  constructor
  case output => exact h'.output.trans h.output
  case position =>
    intro hname
    have hname' : bar'.output.name = name := by rw [h.output, hname]
    exact (h'.position hname').trans (h.position hname)

namespace Session

/-! ### The monitor that was given last -/

/-- The monitor that an event puts under the bar on the output of that name. -/
def Event.monitor? (name : String) : Event → Option Rect
  | .changeMonitor name' monitor => if name' = name then some monitor else none
  | _ => none

/-- The monitor that events put last under the bar on the output of that name. -/
def lastMonitor (name : String) (events : List Event) : Option Rect :=
  (events.filterMap (Event.monitor? name)).getLast?

theorem lastMonitor_concat (name : String) (events : List Event) (event : Event) :
  lastMonitor name (events ++ [event]) = (event.monitor? name).or (lastMonitor name events)
  := getLast?_filterMap_concat ..

theorem Event.monitor?_eq_none {name : String} {event : Event}
    (h : event.isMeasureOf name = false) :
  event.monitor? name = none
  := by
  cases event with
  | changeMonitor name' monitor => exact if_neg (of_decide_eq_false h)
  | _ => rfl

/-- A bar gets the monitor that an event puts under it, and keeps its own otherwise. -/
theorem Event.Turns.monitor {settings : Settings} {event : Event} {bar bar' : Bar}
    (h : event.Turns settings bar bar') :
  bar'.monitor = (event.monitor? bar.output.name).getD bar.monitor
  := by
  cases h with
  | configure => rfl
  | changeMonitor bar monitor =>
    rw [Event.monitor?, if_pos rfl]
    rfl
  | restyle hother h =>
    rw [Event.monitor?_eq_none hother]
    exact h.monitor

/-! ### Moves -/

/-- An event moves the bar on an output to another edge. -/
def Moves (output : Output) (session : Session) (event : Event) : Prop :=
  event.isMoveOf output.name ∧
    ∃ bar ∈ session.inst.bars, ∃ bar' ∈ (session.step event).value.1.inst.bars,
      bar.output = output ∧ bar'.output = output ∧ bar'.position ≠ bar.position

instance (output : Output) (session : Session) (event : Event) :
    Decidable (session.Moves output event) :=
  inferInstanceAs (Decidable (_ ∧ _))

/-- A run measures the bar on an output, or the monitor under it, and does not move the bar
after that. -/
def Measured (output : Output) (session : Session) (events : List Event) : Prop :=
  ∃ before measure after, events = before ++ measure :: after
    ∧ measure.isMeasureOf output.name
    ∧ Avoids (Moves output) (session.run (before ++ [measure])).value after

variable {session : Session} {bar bar' : Bar}

/-- The last event measures the bar, or it was measured before and does not move now. -/
theorem Measured.of_concat {output : Output} {events : List Event} {event : Event}
    (h : Measured output session (events ++ [event])) :
  event.isMeasureOf output.name
    ∨ Measured output session events ∧ ¬ (session.run events).value.Moves output event
  := by
  obtain ⟨before, measure, after, hevents, hmeasure, havoids⟩ := h
  rcases List.eq_nil_or_concat after with rfl | ⟨after, last, rfl⟩
  · left
    obtain ⟨-, hlast⟩ := List.append_inj' hevents rfl
    rw [List.singleton_inj.mp hlast]
    exact hmeasure
  · right
    rw [List.concat_eq_append, ← List.cons_append, ← List.append_assoc] at hevents
    rw [List.concat_eq_append] at havoids
    obtain ⟨rfl, hlast⟩ := List.append_inj' hevents rfl
    obtain rfl := List.singleton_inj.mp hlast
    obtain ⟨havoids, hrests⟩ := (avoids_concat ..).mp havoids
    rw [← value_run_append, List.append_assoc] at hrests
    exact ⟨⟨before, measure, after, rfl, hmeasure, havoids⟩, hrests⟩

/-- An event that does not move the bars on outputs of a name leaves them at their edges. -/
theorem Event.admits_resting {event : Event} {name : String} (h : event.isMoveOf name = false) :
  event.Admits (Bar.Resting name)
  := by
  constructor
  case refl => exact Bar.Resting.refl name
  case trans => exact fun _ _ _ => Bar.Resting.trans
  case changeMode => exact fun _ _ _ => ⟨rfl, fun _ => rfl⟩
  case changePosition =>
    intro settings position bar hmove
    use rfl
    rintro rfl
    rw [h] at hmove
    cases hmove
  case configure => exact fun _ _ _ _ => ⟨rfl, fun _ => rfl⟩
  case changeMonitor => exact fun _ _ _ _ => ⟨rfl, fun _ => rfl⟩

/-- Bars on one output are the same. -/
theorem Fitting.eq_of_output (h : session.Fitting) (hbar : bar ∈ session.inst.bars)
    (hbar' : bar' ∈ session.inst.bars) (houtput : bar'.output = bar.output) :
  bar' = bar
  := by
  have hnames := h.names
  rw [Instance.barOutputs, List.map_map] at hnames
  exact List.inj_on_of_nodup_map hnames hbar' hbar (congrArg Output.name houtput)

/-- A bar that an event does not move is at the same edge after it. -/
theorem position_eq_of_not_moves (hfitting : session.Fitting) {event : Event}
    (hbar : bar ∈ session.inst.bars) (hbar' : bar' ∈ (session.step event).value.1.inst.bars)
    (houtput : bar'.output = bar.output) (h : ¬ session.Moves bar.output event) :
  bar'.position = bar.position
  := by
  by_contra hposition
  have hmove : event.isMoveOf bar.output.name = false := by
    rw [← Bool.not_eq_true]
    intro hmove
    exact h ⟨hmove, bar, hbar, bar', hbar', rfl, houtput, hposition⟩
  by_cases hadd : ∃ output monitor, event = .addOutput output monitor
  · obtain ⟨output, monitor, rfl⟩ := hadd
    rcases mem_step_addOutput hbar' with hold | ⟨hcreated, rfl⟩
    · rw [hfitting.eq_of_output hbar hold houtput] at hposition
      exact hposition rfl
    · obtain rfl : output = bar.output := houtput
      cases created?_ne_of_mem (List.mem_map_of_mem hbar) _ hcreated
  · have hkind : ∀ output monitor, event ≠ .addOutput output monitor :=
      fun output monitor hevent => hadd ⟨output, monitor, hevent⟩
    obtain ⟨other, hother, hresting⟩ :=
      carries_step hfitting (Event.admits_resting hmove) hkind bar' hbar'
    obtain rfl := hfitting.eq_of_output hbar hother (hresting.output.symm.trans houtput)
    exact hposition (hresting.position rfl)

/-! ### Fresh corners -/

/-- An event that measures a bar makes its corner the right one. -/
theorem Event.Turns.fresh_of_isMeasureOf {settings : Settings} {event : Event}
    (h : event.Turns settings bar bar') (hmeasure : event.isMeasureOf bar.output.name) :
  bar'.Fresh settings
  := by
  cases h with
  | configure => rfl
  | changeMonitor => rfl
  | restyle hother =>
    rw [hother] at hmeasure
    cases hmeasure

/-- The right corner of a bar that stays at its edge is right after any event. -/
theorem Event.Turns.fresh {settings : Settings} {event : Event}
    (h : event.Turns settings bar bar') (hposition : bar'.position = bar.position)
    (hfresh : bar.Fresh settings) :
  bar'.Fresh settings
  := by
  cases h with
  | configure => rfl
  | changeMonitor => rfl
  | restyle _ h =>
    rw [Bar.Fresh, h.offset, h.monitor, h.size, hposition]
    exact hfresh

/-- Every bar of a run is over the monitor and has the size that it was given last in its life,
and has the right corner if it was measured and not moved since. -/
theorem exists_life_fresh (settings : Settings) (reset : ModifierReset) (events : List Event)
    (hbar : bar ∈ ((ofSettings settings reset).run events).value.inst.bars) :
  ∃ monitor birth life,
    (ofSettings settings reset).HasLifeSince events bar.output monitor birth life
    ∧ bar.monitor = (lastMonitor bar.output.name life).getD monitor
    ∧ bar.size = (lastGiven bar.output.name life).getD settings.size
    ∧ (Measured bar.output birth life → bar.Fresh settings)
  := by
  apply exists_life_since settings reset _ _ events hbar
  · intro birth output monitor position mode
    use rfl, rfl
    rintro ⟨before, measure, after, hevents, -⟩
    cases (List.append_ne_nil_of_right_ne_nil before (List.cons_ne_nil _ _)) hevents.symm
  · rintro monitor birth life event bar bar' hfitting hbar hbar' hturns ⟨hmonitor, hsize, hfresh⟩
    constructor
    · rw [hturns.monitor, hturns.output, hmonitor, lastMonitor_concat]
      cases event.monitor? bar.output.name <;> rfl
    constructor
    · exact hturns.size_eq_lastGiven hsize
    · intro hmeasured
      rw [hturns.output] at hmeasured
      rcases hmeasured.of_concat with hmeasure | ⟨hbefore, hrests⟩
      · exact hturns.fresh_of_isMeasureOf hmeasure
      · apply hturns.fresh _ (hfresh hbefore)
        exact position_eq_of_not_moves hfitting hbar hbar' hturns.output hrests

/-- The right corner of a bar is right after an event, unless that moves the bar. -/
theorem fresh_step {settings : Settings} (hfitting : session.Fitting)
    (hsettings : session.inst.settings = settings) (event : Event)
    (hbar : bar ∈ session.inst.bars) (hbar' : bar' ∈ (session.step event).value.1.inst.bars)
    (houtput : bar'.output = bar.output) (hrests : ¬ session.Moves bar.output event)
    (hfresh : bar.Fresh settings) :
  bar'.Fresh settings
  := by
  have hposition := position_eq_of_not_moves hfitting hbar hbar' houtput hrests
  rcases exists_of_mem_step hfitting event hbar' with
    ⟨-, -, hcreated, -⟩ | ⟨other, hother, hturns⟩
  · rw [houtput] at hcreated
    cases created?_ne_of_mem (List.mem_map_of_mem hbar) _ hcreated
  · obtain rfl := hfitting.eq_of_output hbar hother (hturns.output.symm.trans houtput)
    rw [hsettings] at hturns
    exact hturns.fresh hposition hfresh

/-- Every bar of a run has a life, is over the monitor and has the size that it was given last
in its life, which are those of its creation as long as no event gave it others, and has the
right corner if it was measured in its life and not moved since.  No event makes a right corner
wrong, unless it moves the bar.  Sizes and monitors may come in either order. -/
theorem offset_fresh (settings : Settings) (reset : ModifierReset) (events : List Event) :
  let session := ((ofSettings settings reset).run events).value
  (∀ bar ∈ session.inst.bars,
      (∃ monitor birth life,
          (ofSettings settings reset).HasLifeSince events bar.output monitor birth life)
        ∧ ∀ monitor birth life,
          (ofSettings settings reset).HasLifeSince events bar.output monitor birth life →
            bar.monitor = (lastMonitor bar.output.name life).getD monitor
              ∧ bar.size = (lastGiven bar.output.name life).getD settings.size
              ∧ (Measured bar.output birth life → bar.Fresh settings))
    ∧ (∀ bar ∈ session.inst.bars, bar.Fresh settings →
        ∀ event, ¬ session.Moves bar.output event →
        ∀ bar' ∈ (session.step event).value.1.inst.bars, bar'.output = bar.output →
          bar'.Fresh settings)
    ∧ ∀ name name' size monitor,
      session.run [.configure name size, .changeMonitor name' monitor]
        = session.run [.changeMonitor name' monitor, .configure name size]
  := by
  intro session
  have hfitting : session.Fitting := (fitting_ofSettings settings reset).run events
  have hsettings : session.inst.settings = settings :=
    ((ofSettings settings reset).becomes_run events).settings
  constructor
  · intro bar hbar
    obtain ⟨monitor, birth, life, hlife, hgiven⟩ := exists_life_fresh settings reset events hbar
    use ⟨monitor, birth, life, hlife⟩
    intro monitor' birth' life' hlife'
    obtain ⟨rfl, rfl, rfl⟩ := hlife.unique hlife'
    exact hgiven
  constructor
  · intro bar hbar hfresh event hrests bar' hbar' houtput
    exact fresh_step hfitting hsettings event hbar hbar' houtput hrests hfresh
  · exact session.run_configure_changeMonitor

/-- A run in which a bar moves, is measured, and is asked to move where it cannot. -/
def rearranged : List Event :=
  [.addOutput ⟨"DP-1", ""⟩ ⟨0, 0, 1920, 1080⟩, .setPosition "bottom",
   .configure "DP-1" ⟨1920, 30⟩, .changeMonitor "DP-1" ⟨1920, 0, 2560, 1440⟩,
   .setPosition "left", .setMode "hide"]

/-- The corner of the bar is the right one after the run and when the bar shows, and not any more
when it moves back to the top. -/
theorem offset_fresh_rearranged :
  let session := ((ofSettings Settings.initial).run rearranged).value
  session.inst.bars.map (·.output.name) = ["DP-1"]
    ∧ ∀ bar ∈ session.inst.bars,
      bar.offset
          = StatusBar.offset .bottom Settings.initial.margins ⟨1920, 0, 2560, 1440⟩ ⟨1920, 30⟩
        ∧ (∀ bar' ∈ (session.step (.setMode "dock")).value.1.inst.bars,
          bar'.Fresh Settings.initial)
        ∧ ∀ bar' ∈ (session.step (.setPosition "top")).value.1.inst.bars,
          ¬ bar'.Fresh Settings.initial
  := by
  intro session
  have hplaces : ∀ bar ∈ session.inst.bars,
      bar.output = ⟨"DP-1", ""⟩ ∧ bar.position = .bottom := by
    decide
  have hplaces' : ∀ bar' ∈ (session.step (.setMode "dock")).value.1.inst.bars,
      bar'.output = ⟨"DP-1", ""⟩ := by
    decide
  have hrests : ¬ session.Moves ⟨"DP-1", ""⟩ (.setMode "dock") := by decide
  obtain ⟨hlives, hkeeps, -⟩ := offset_fresh Settings.initial _ rearranged
  use by decide
  intro bar hbar
  obtain ⟨houtput, hposition⟩ := hplaces bar hbar
  obtain ⟨-, hlife⟩ := hlives bar hbar
  rw [houtput] at hlife
  obtain ⟨hmonitor, hsize, hmeasured⟩ := hlife ⟨0, 0, 1920, 1080⟩ _ rearranged.tail
    ⟨[], rfl, by decide, rfl, by decide⟩
  have hfresh : bar.Fresh Settings.initial := hmeasured
    ⟨[.setPosition "bottom"], .configure "DP-1" ⟨1920, 30⟩, _, rfl, rfl, by decide⟩
  constructor
  · rw [Bar.Fresh, hposition, hmonitor, hsize] at hfresh
    exact hfresh
  constructor
  · intro bar' hbar'
    rw [← houtput] at hrests hplaces'
    exact hkeeps bar hbar hfresh _ hrests bar' hbar' (hplaces' bar' hbar')
  · decide

end Session

end StatusBar
