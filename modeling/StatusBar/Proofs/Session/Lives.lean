import StatusBar.Proofs.Session.Outputs
import StatusBar.Proofs.Session.Standing

/-!
# Lives of bars

The life of a bar is made of the events since the addition that created it.  An event creates a
bar, measures it, or at most changes its mode and its edge: `Session.exists_of_mem_step` says so
of every bar after an event.  What holds of a new bar, and is kept by the events, then holds of
every bar of a run with its life, by `Session.exists_life`.
-/

namespace StatusBar

/-! ### Bars in another mode or at another edge -/

/-- The second bar is the first one, but for its mode and its edge. -/
structure Bar.Restyled (bar bar' : Bar) : Prop where
  output : bar'.output = bar.output
  monitor : bar'.monitor = bar.monitor
  orientation : bar'.orientation = bar.orientation
  size : bar'.size = bar.size
  offset : bar'.offset = bar.offset

namespace Bar

theorem Restyled.refl (bar : Bar) :
  bar.Restyled bar
  := ⟨rfl, rfl, rfl, rfl, rfl⟩

theorem Restyled.trans {bar bar' bar'' : Bar} (h : bar.Restyled bar')
    (h' : bar'.Restyled bar'') :
  bar.Restyled bar''
  := by
  constructor
  case output => exact h'.output.trans h.output
  case monitor => exact h'.monitor.trans h.monitor
  case orientation => exact h'.orientation.trans h.orientation
  case size => exact h'.size.trans h.size
  case offset => exact h'.offset.trans h.offset

theorem restyled_changeMode (settings : Settings) (mode : String) (bar : Bar) :
  bar.Restyled (bar.changeMode settings mode).value
  := ⟨rfl, rfl, rfl, rfl, rfl⟩

theorem restyled_changePosition (settings : Settings) (position : Position) (bar : Bar) :
  bar.Restyled (bar.changePosition settings position).value
  := ⟨rfl, rfl, rfl, rfl, rfl⟩

end Bar

namespace Instance

/-- Every bar of the second instance came from one of the first in that way. -/
def Carries (way : Bar → Bar → Prop) (inst inst' : Instance) : Prop :=
  ∀ bar' ∈ inst'.bars, ∃ bar ∈ inst.bars, way bar bar'

variable {inst inst' inst'' : Instance}

section Ways

variable {way : Bar → Bar → Prop}

theorem carries_onBars {change : Bar → Step Bar} (h : ∀ bar, way bar (change bar).value) :
  inst.Carries way (inst.onBars change).value
  := by
  intro bar' hbar'
  rw [onBars, Logged.value_bind, Logged.value_each] at hbar'
  obtain ⟨bar, hbar, rfl⟩ := List.mem_map.mp hbar'
  exact ⟨bar, hbar, h bar⟩

theorem Carries.trans (htrans : ∀ bar bar' bar'', way bar bar' → way bar' bar'' → way bar bar'')
    (h : inst.Carries way inst') (h' : inst'.Carries way inst'') :
  inst.Carries way inst''
  := by
  intro bar'' hbar''
  obtain ⟨bar', hbar', hway'⟩ := h' bar'' hbar''
  obtain ⟨bar, hbar, hway⟩ := h bar' hbar'
  exact ⟨bar, hbar, htrans bar bar' bar'' hway hway'⟩

variable (hrefl : ∀ bar, way bar bar)
include hrefl

/-- Bars may go. -/
theorem Carries.of_subset (h : inst'.bars ⊆ inst.bars) :
  inst.Carries way inst'
  := fun bar hbar => ⟨bar, h hbar, hrefl bar⟩

theorem Carries.refl (inst : Instance) :
  inst.Carries way inst
  := .of_subset hrefl (List.Subset.refl _)

theorem carries_setOutputs (inst : Instance) (patterns : List String) :
  inst.Carries way (inst.setOutputs patterns)
  := .of_subset hrefl (List.filter_subset_self _)

section Modes

variable (hmode : ∀ settings mode bar, way bar (bar.changeMode settings mode).value)
include hmode

theorem carries_setMode (inst : Instance) (mode : String) :
  inst.Carries way (inst.setMode mode).value
  := by
  rw [setMode]
  split
  · exact .refl hrefl inst
  · split
    · exact .refl hrefl inst
    · exact carries_onBars (hmode _ _)

theorem carries_setVisible (inst : Instance) (visible : Bool) :
  inst.Carries way (inst.setVisible visible).value
  := carries_setMode hrefl hmode { inst with visible := visible } _

theorem carries_refresh (inst : Instance) (sync : Sway.Sync) :
  inst.Carries way (sync.refresh inst).value
  := by
  rw [Sway.Sync.refresh]
  split
  · exact .refl hrefl inst
  · exact carries_setMode hrefl hmode inst _

end Modes

theorem carries_setPosition
    (hposition : ∀ settings position bar, way bar (bar.changePosition settings position).value)
    (inst : Instance) (name : String) :
  inst.Carries way (inst.setPosition name).value
  := by
  rw [setPosition]
  split
  case h_1 position _ =>
    rw [moveTo]
    split
    · exact .refl hrefl inst
    · split
      · exact .refl hrefl inst
      · exact carries_onBars (hposition _ _)
  case h_2 => exact .refl hrefl inst

theorem carries_applyBarConfig
    (htrans : ∀ bar bar' bar'', way bar bar' → way bar' bar'' → way bar bar'')
    (hmode : ∀ settings mode bar, way bar (bar.changeMode settings mode).value)
    (hposition : ∀ settings position bar, way bar (bar.changePosition settings position).value)
    (inst : Instance) (config : Sway.BarConfig) (revealed : Bool) :
  inst.Carries way (inst.applyBarConfig config revealed).value.1
  := by
  rw [applyBarConfig]
  split
  · exact .refl hrefl inst
  · apply (carries_setOutputs hrefl inst _).trans htrans
    apply (carries_setPosition hrefl hposition _ _).trans htrans
    apply carries_setMode hrefl hmode

end Ways

/-! ### The bar of a name -/

/-- Where the names of outputs differ, a change of the bar of a name leaves the others. -/
theorem bars_onBar (hnames : inst.bars.Pairwise (·.output.name ≠ ·.output.name)) (name : String)
    (change : Bar → Step Bar) :
  (inst.onBar name change).value.1.bars
    = inst.bars.map fun bar => if bar.output.name = name then (change bar).value else bar
  := by
  have h := congrArg (fun step => step.value.bars) (onBar_eq_onBars inst name change hnames)
  rw [Logged.value_map] at h
  apply h.trans
  rw [onBars, Logged.value_bind, Logged.value_each]
  apply List.map_congr_left
  intro bar _
  split <;> rfl

/-- The change of a bar is all that happens. -/
theorem log_onBar (hnames : inst.bars.Pairwise (·.output.name ≠ ·.output.name))
    (change : Bar → Step Bar) {bar : Bar} (hbar : bar ∈ inst.bars) :
  (inst.onBar bar.output.name change).log = (change bar).log
  := by
  have hlog : (inst.onBar bar.output.name change).log
      = (onBar.go bar.output.name change inst.bars).log := List.append_nil _
  rw [hlog]
  clear hlog
  generalize inst.bars = bars at hnames hbar
  induction bars with
  | nil => cases hbar
  | cons first bars ih =>
    obtain ⟨hfirst, hbars⟩ := List.pairwise_cons.mp hnames
    rw [onBar.go]
    rcases List.mem_cons.mp hbar with rfl | hbar
    · rw [if_pos rfl]
      exact List.append_nil _
    · rw [if_neg (hfirst bar hbar), Logged.log_bind, ih hbars hbar]
      exact List.append_nil _

end Instance

namespace Session

/-! ### What an event makes of a bar -/

/-- Whether an event measures the bar on the output of that name, or the monitor under it. -/
def Event.isMeasureOf (name : String) : Event → Bool
  | .configure name' _ => name' = name
  | .changeMonitor name' _ => name' = name
  | _ => false

/-- Whether an event may move the bar on the output of that name. -/
def Event.isMoveOf (name : String) : Event → Bool
  | .setPosition _ => true
  | .setBarPosition name' _ => name' = name
  | .applyBarConfig _ _ => true
  | .barConfig _ => true
  | _ => false

/-- What an event makes of a bar that it leaves. -/
inductive Event.Turns (settings : Settings) : Event → Bar → Bar → Prop where
  | configure (bar : Bar) (size : Size) :
    Turns settings (.configure bar.output.name size) bar (bar.configure settings size).value
  | changeMonitor (bar : Bar) (monitor : Rect) :
    Turns settings (.changeMonitor bar.output.name monitor) bar (bar.changeMonitor settings monitor)
  | restyle {event : Event} {bar bar' : Bar} (hother : event.isMeasureOf bar.output.name = false)
    (h : bar.Restyled bar') : Turns settings event bar bar'

variable {session : Session}

theorem Event.Turns.output {settings : Settings} {event : Event} {bar bar' : Bar}
    (h : event.Turns settings bar bar') :
  bar'.output = bar.output
  := by
  cases h with
  | configure => rfl
  | changeMonitor => rfl
  | restyle _ h => exact h.output

theorem Fitting.pairwise (h : session.Fitting) :
  session.inst.bars.Pairwise (·.output.name ≠ ·.output.name)
  := by
  have hnames := h.names
  rw [Instance.barOutputs, List.map_map] at hnames
  exact List.pairwise_map.mp hnames

/-- A change of the bar of a name leaves the others. -/
theorem carries_onBar (h : session.Fitting) {way : Bar → Bar → Prop} {name : String}
    {change : Bar → Step Bar}
    (hchange : ∀ bar : Bar, bar.output.name = name → way bar (change bar).value)
    (hother : ∀ bar : Bar, bar.output.name ≠ name → way bar bar) :
  session.inst.Carries way (session.inst.onBar name change).value.1
  := by
  intro bar' hbar'
  rw [Instance.bars_onBar h.pairwise] at hbar'
  obtain ⟨bar, hbar, rfl⟩ := List.mem_map.mp hbar'
  use bar, hbar
  split
  case isTrue hname => exact hchange bar hname
  case isFalse hname => exact hother bar hname

/-- An event that measures a bar leaves the other bars. -/
theorem turns_onBar (h : session.Fitting) {event : Event} {name : String}
    {change : Bar → Step Bar} (hevent : ∀ other, event.isMeasureOf other → other = name)
    (hchange : ∀ bar : Bar, bar.output.name = name →
      event.Turns session.inst.settings bar (change bar).value) :
  session.inst.Carries (event.Turns session.inst.settings)
    (session.inst.onBar name change).value.1
  := by
  apply carries_onBar h hchange
  intro bar hname
  apply Event.Turns.restyle _ (.refl bar)
  rw [← Bool.not_eq_true]
  intro hmeasure
  exact hname (hevent _ hmeasure)

/-- Whether an event may create a bar, or measure one. -/
def Event.isBuilding : Event → Bool
  | .addOutput _ _ => true
  | .configure _ _ => true
  | .changeMonitor _ _ => true
  | _ => false

theorem Event.isMeasureOf_eq_false {event : Event} (h : event.isBuilding = false)
    (name : String) :
  event.isMeasureOf name = false
  := by
  cases event with
  | configure => cases h
  | changeMonitor => cases h
  | _ => rfl

/-- All that an event may do to a bar, time and again, goes that way. -/
structure Event.Admits (event : Event) (way : Bar → Bar → Prop) : Prop where
  refl : ∀ bar, way bar bar
  trans : ∀ bar bar' bar'', way bar bar' → way bar' bar'' → way bar bar''
  changeMode : ∀ settings mode bar, way bar (bar.changeMode settings mode).value
  changePosition : ∀ settings position bar, event.isMoveOf bar.output.name →
    way bar (bar.changePosition settings position).value
  configure : ∀ settings size bar, event.isMeasureOf bar.output.name →
    way bar (bar.configure settings size).value
  changeMonitor : ∀ settings monitor bar, event.isMeasureOf bar.output.name →
    way bar (bar.changeMonitor settings monitor)

/-- Unless it is an addition, an event brings no bars but those that came that way. -/
theorem carries_step (hfitting : session.Fitting) {event : Event} {way : Bar → Bar → Prop}
    (h : event.Admits way) (hadd : ∀ output monitor, event ≠ .addOutput output monitor) :
  session.inst.Carries way (session.step event).value.1.inst
  := by
  cases event with
  | addOutput output monitor => cases hadd output monitor rfl
  | removeOutput name => exact .of_subset h.refl (List.filter_subset_self _)
  | setMode mode => exact Instance.carries_setMode h.refl h.changeMode _ mode
  | setPosition name =>
    apply Instance.carries_setPosition h.refl
    intro settings position bar
    exact h.changePosition settings position bar rfl
  | setVisible visible => exact Instance.carries_setVisible h.refl h.changeMode _ visible
  | toggle => exact Instance.carries_setVisible h.refl h.changeMode _ _
  | setOutputs patterns => exact Instance.carries_setOutputs h.refl _ patterns
  | configure name size =>
    change session.inst.Carries way (session.inst.configure name size).value
    rw [Instance.configure]
    split
    · apply carries_onBar hfitting _ fun bar _ => h.refl bar
      intro bar hname
      exact h.configure _ size bar (decide_eq_true hname.symm)
    · exact .refl h.refl _
  | changeMonitor name monitor =>
    apply carries_onBar hfitting _ fun bar _ => h.refl bar
    intro bar hname
    exact h.changeMonitor _ monitor bar (decide_eq_true hname.symm)
  | setBarMode name mode =>
    apply carries_onBar hfitting _ fun bar _ => h.refl bar
    intro bar _
    exact h.changeMode _ mode bar
  | setBarPosition name position =>
    apply carries_onBar hfitting _ fun bar _ => h.refl bar
    intro bar hname
    exact h.changePosition _ position bar (decide_eq_true hname.symm)
  | setStartedBarId id => exact .of_subset h.refl (List.Subset.refl _)
  | applyBarConfig config revealed | barConfig config =>
    apply Instance.carries_applyBarConfig h.refl h.trans h.changeMode
    intro settings position bar
    exact h.changePosition settings position bar rfl
  | barStateUpdate update =>
    rw [step, Sway.Sync.onBarStateUpdate]
    split
    · exact .refl h.refl _
    · exact Instance.carries_refresh h.refl h.changeMode _ _
  | modeChange change | urgency urgent =>
    exact Instance.carries_refresh h.refl h.changeMode _ _

/-- Events that neither create nor measure bars change their modes and edges at most. -/
theorem Event.admits_restyled {event : Event} (h : event.isBuilding = false) :
  event.Admits Bar.Restyled
  := by
  have hmeasure : ∀ name, ¬ event.isMeasureOf name := by
    intro name
    rw [Event.isMeasureOf_eq_false h]
    exact Bool.false_ne_true
  constructor
  case refl => exact Bar.Restyled.refl
  case trans => exact fun _ _ _ => Bar.Restyled.trans
  case changeMode => exact Bar.restyled_changeMode
  case changePosition => exact fun _ _ _ _ => Bar.restyled_changePosition _ _ _
  case configure => exact fun _ _ _ hmeasured => absurd hmeasured (hmeasure _)
  case changeMonitor => exact fun _ _ _ hmeasured => absurd hmeasured (hmeasure _)

/-- No bar is created on an output that has one. -/
theorem created?_ne_of_mem {output : Output} (h : output ∈ session.inst.barOutputs)
    (event : Event) :
  session.created? event ≠ some output
  := by
  intro hcreated
  obtain ⟨-, -, hnone⟩ := created?_eq_some hcreated
  exact hnone output h rfl

/-- A bar after the addition of an output was there before, or was created on the output. -/
theorem mem_step_addOutput {output : Output} {monitor : Rect} {bar : Bar}
    (hbar : bar ∈ (session.step (.addOutput output monitor)).value.1.inst.bars) :
  bar ∈ session.inst.bars
    ∨ session.created? (.addOutput output monitor) = some output
      ∧ bar = (Bar.create session.inst.settings output monitor session.inst.position
          session.inst.mode).value
  := by
  change bar ∈ (session.inst.addOutput output monitor).value.1.bars at hbar
  by_cases hadd : session.inst.isOutputEnabled output && !session.inst.hasBar output.name
  · have hstep : session.inst.addOutput output monitor = _ := if_pos hadd
    rw [hstep] at hbar
    rcases List.mem_append.mp hbar with hold | hnew
    · exact .inl hold
    · right
      rw [created?, hstep]
      exact ⟨rfl, List.mem_singleton.mp hnew⟩
  · have hstep : session.inst.addOutput output monitor = _ := if_neg hadd
    rw [hstep] at hbar
    exact .inl hbar

/-- A bar after an event was created by it, or was there before and went through it. -/
theorem exists_of_mem_step (h : session.Fitting) (event : Event) {bar' : Bar}
    (hbar' : bar' ∈ (session.step event).value.1.inst.bars) :
  (∃ monitor, event = .addOutput bar'.output monitor
      ∧ session.created? event = some bar'.output
      ∧ bar' = (Bar.create session.inst.settings bar'.output monitor session.inst.position
          session.inst.mode).value)
    ∨ ∃ bar ∈ session.inst.bars, event.Turns session.inst.settings bar bar'
  := by
  by_cases hbuilding : event.isBuilding
  · cases event with
    | addOutput output monitor =>
      rcases mem_step_addOutput hbar' with hold | ⟨hcreated, hnew⟩
      · right
        use bar', hold, .restyle rfl (.refl bar')
      · left
        obtain rfl : bar'.output = output := by rw [hnew]; rfl
        exact ⟨monitor, rfl, hcreated, hnew⟩
    | configure name size =>
      right
      change bar' ∈ (session.inst.configure name size).value.bars at hbar'
      rw [Instance.configure] at hbar'
      split at hbar'
      case isTrue =>
        rw [Logged.value_map] at hbar'
        apply turns_onBar h (fun _ hmeasure => (of_decide_eq_true hmeasure).symm) _ bar' hbar'
        rintro bar rfl
        apply Event.Turns.configure
      case isFalse hnone =>
        use bar', hbar'
        apply Event.Turns.restyle _ (.refl bar')
        rw [← Bool.not_eq_true]
        intro hmeasure
        obtain rfl := of_decide_eq_true hmeasure
        exact hnone (Instance.hasBar_of_mem hbar')
    | changeMonitor name monitor =>
      right
      apply turns_onBar h (fun _ hmeasure => (of_decide_eq_true hmeasure).symm) _ bar' hbar'
      rintro bar rfl
      apply Event.Turns.changeMonitor
    | _ => cases hbuilding
  · right
    rw [Bool.not_eq_true] at hbuilding
    have hadd : ∀ output monitor, event ≠ .addOutput output monitor := by
      rintro output monitor rfl
      cases hbuilding
    obtain ⟨bar, hbar, hrestyled⟩ :=
      carries_step h (Event.admits_restyled hbuilding) hadd bar' hbar'
    use bar, hbar, .restyle (Event.isMeasureOf_eq_false hbuilding _) hrestyled

/-! ### Lives -/

/-- A bar remains where the run avoids what is against it. -/
theorem remains_iff_avoids (output : Output) (session : Session) (events : List Event) :
  Remains output session events
    ↔ Avoids (fun session event => session.Drops event output) session events
  := by
  induction events generalizing session with
  | nil => exact Iff.rfl
  | cons event events ih => exact and_congr_right fun _ => ih _

theorem remains_concat (output : Output) (session : Session) (events : List Event)
    (event : Event) :
  Remains output session (events ++ [event])
    ↔ Remains output session events ∧ ¬ (session.run events).value.Drops event output
  := by
  rw [remains_iff_avoids, remains_iff_avoids, avoids_concat]

/-- What remains over a run remains over the first part of it. -/
theorem Remains.append_left {output : Output} {session : Session} {events later : List Event}
    (h : Remains output session (events ++ later)) :
  Remains output session events
  := by
  induction events generalizing session with
  | nil => trivial
  | cons event events ih => exact ⟨h.1, ih h.2⟩

/-- An event is not against the bars that there are after it. -/
theorem not_drops_of_mem_step {event : Event} {output : Output}
    (h : output ∈ (session.step event).value.1.inst.barOutputs) :
  ¬ session.Drops event output
  := by
  rw [barOutputs_step] at h
  rcases List.mem_append.mp h with hkept | hcreated
  · exact of_decide_eq_true (List.mem_filter.mp hkept).2
  · have hcreated := Option.mem_toList.mp hcreated
    obtain ⟨hpatterns, -, -⟩ := created?_eq_some hcreated
    rintro (rfl | ⟨patterns, hbrought, -⟩)
    · cases hcreated
    · rw [hpatterns] at hbrought
      cases hbrought

/-- In a run a bar was created on the output over that monitor, which led to the session of its
birth; it remained, and lived through the events since. -/
def HasLifeSince (start : Session) (events : List Event) (output : Output) (monitor : Rect)
    (birth : Session) (life : List Event) : Prop :=
  ∃ earlier, events = earlier ++ .addOutput output monitor :: life
    ∧ (start.run earlier).value.created? (.addOutput output monitor) = some output
    ∧ ((start.run earlier).value.step (.addOutput output monitor)).value.1 = birth
    ∧ Remains output birth life

/-- In a run a bar was created on the output, remained, and lived through the events since. -/
def HasLife (start : Session) (events : List Event) (output : Output) (life : List Event) : Prop :=
  ∃ monitor birth, start.HasLifeSince events output monitor birth life

namespace HasLifeSince

variable {start birth : Session} {events life : List Event} {output : Output} {monitor : Rect}

theorem value_run (h : start.HasLifeSince events output monitor birth life) :
  (start.run events).value = (birth.run life).value
  := by
  obtain ⟨earlier, rfl, -, rfl, -⟩ := h
  rw [value_run_append, value_run_cons]

/-- A life goes on. -/
theorem concat (h : start.HasLifeSince events output monitor birth life) {event : Event}
    (hdrops : ¬ (start.run events).value.Drops event output) :
  start.HasLifeSince (events ++ [event]) output monitor birth (life ++ [event])
  := by
  rw [h.value_run] at hdrops
  obtain ⟨earlier, rfl, hcreated, hbirth, hremains⟩ := h
  use earlier
  constructor
  · simp
  · use hcreated, hbirth
    exact (remains_concat ..).mpr ⟨hremains, hdrops⟩

/-- There is a bar on the output after its life. -/
theorem mem_barOutputs (h : start.HasLifeSince events output monitor birth life) :
  output ∈ (start.run events).value.inst.barOutputs
  := by
  rw [h.value_run]
  obtain ⟨earlier, -, hcreated, rfl, hremains⟩ := h
  rw [barOutputs_run]
  apply List.mem_append_left
  apply List.mem_filter.mpr
  constructor
  · rw [barOutputs_step, hcreated]
    exact List.mem_append_right _ List.mem_cons_self
  · exact decide_eq_true hremains

/-- Of two creations in a run that are followed by lives, none comes after the other. -/
theorem earlier_eq_nil {earlier between later : List Event} {monitor' : Rect}
    (hcreated : (start.run earlier).value.created? (.addOutput output monitor) = some output)
    (hremains : Remains output ((start.run earlier).value.step (.addOutput output monitor)).value.1
      life)
    (hcreated' : (start.run (earlier ++ between)).value.created? (.addOutput output monitor')
      = some output)
    (hevents : .addOutput output monitor :: life = between ++ .addOutput output monitor' :: later) :
  between = []
  := by
  cases between with
  | nil => rfl
  | cons first between =>
    obtain ⟨rfl, rfl⟩ := List.cons.inj hevents
    have hlife : start.HasLifeSince (earlier ++ .addOutput output monitor :: between) output monitor
        _ between := ⟨earlier, rfl, hcreated, rfl, hremains.append_left⟩
    cases created?_ne_of_mem hlife.mem_barOutputs _ hcreated'

/-- A bar has one life. -/
theorem unique {monitor' : Rect} {birth' : Session} {life' : List Event}
    (h : start.HasLifeSince events output monitor birth life)
    (h' : start.HasLifeSince events output monitor' birth' life') :
  monitor' = monitor ∧ birth' = birth ∧ life' = life
  := by
  obtain ⟨earlier, rfl, hcreated, rfl, hremains⟩ := h
  obtain ⟨earlier', hevents, hcreated', rfl, hremains'⟩ := h'
  have hsame : earlier' = earlier := by
    rcases List.append_eq_append_iff.mp hevents with
      ⟨between, rfl, hlife⟩ | ⟨between, rfl, hlife⟩
    · rw [earlier_eq_nil hcreated hremains hcreated' hlife, List.append_nil]
    · rw [earlier_eq_nil hcreated' hremains' hcreated hlife, List.append_nil]
  rw [hsame] at hevents ⊢
  obtain ⟨hmonitor, hlife⟩ := List.cons.inj (List.append_cancel_left hevents)
  obtain rfl := (Event.addOutput.inj hmonitor).2
  exact ⟨rfl, rfl, hlife.symm⟩

end HasLifeSince

/-- What holds of a new bar, and of a bar after each event that it goes through, holds of every
bar of a run with its life and the session of its birth. -/
theorem exists_life_since (settings : Settings) (reset : ModifierReset)
    {holds : Rect → Session → List Event → Bar → Prop}
    (hcreate : ∀ birth output monitor position mode,
      holds monitor birth [] (Bar.create settings output monitor position mode).value)
    (hturn : ∀ monitor birth life event bar bar', (birth.run life).value.Fitting →
      bar ∈ (birth.run life).value.inst.bars →
      bar' ∈ ((birth.run life).value.step event).value.1.inst.bars →
      event.Turns settings bar bar' → holds monitor birth life bar →
      holds monitor birth (life ++ [event]) bar')
    (events : List Event) {bar : Bar}
    (hbar : bar ∈ ((ofSettings settings reset).run events).value.inst.bars) :
  ∃ monitor birth life,
    (ofSettings settings reset).HasLifeSince events bar.output monitor birth life
    ∧ holds monitor birth life bar
  := by
  -- The induction is on the run from its start: the last event creates the bar or turns it.
  induction events using List.reverseRecOn generalizing bar with
  | nil => cases hbar
  | append_singleton events event ih =>
    rw [value_run_concat] at hbar
    have hfitting := (fitting_ofSettings settings reset).run events
    have hsettings : ((ofSettings settings reset).run events).value.inst.settings = settings :=
      ((ofSettings settings reset).becomes_run events).settings
    have hkept := not_drops_of_mem_step (List.mem_map_of_mem hbar)
    rcases exists_of_mem_step hfitting event hbar with
      ⟨monitor, hevent, hcreated, hnew⟩ | ⟨bar', hbar', hturns⟩
    · rw [hevent] at hcreated ⊢
      refine ⟨monitor, _, [], ⟨events, rfl, hcreated, rfl, trivial⟩, ?_⟩
      rw [hnew, hsettings]
      apply hcreate
    · obtain ⟨monitor, birth, life, hlife, hholds⟩ := ih hbar'
      rw [hsettings] at hturns
      use monitor, birth, life ++ [event]
      constructor
      · rw [hturns.output] at hkept ⊢
        exact hlife.concat hkept
      · rw [hlife.value_run] at hfitting hbar' hbar
        exact hturn monitor birth life event bar' bar hfitting hbar' hbar hturns hholds

/-- What holds of a new bar, and of a bar after each event that it goes through, holds of every
bar of a run with its life. -/
theorem exists_life (settings : Settings) (reset : ModifierReset)
    {holds : List Event → Bar → Prop}
    (hcreate : ∀ output monitor position mode,
      holds [] (Bar.create settings output monitor position mode).value)
    (hturn : ∀ life event bar bar', event.Turns settings bar bar' → holds life bar →
      holds (life ++ [event]) bar')
    (events : List Event) {bar : Bar}
    (hbar : bar ∈ ((ofSettings settings reset).run events).value.inst.bars) :
  ∃ life, (ofSettings settings reset).HasLife events bar.output life ∧ holds life bar
  := by
  obtain ⟨monitor, birth, life, hlife, hholds⟩ := exists_life_since settings reset
    (fun _ => hcreate) (fun _ _ life event bar bar' _ _ _ => hturn life event bar bar') events hbar
  exact ⟨life, ⟨monitor, birth, hlife⟩, hholds⟩

end Session

end StatusBar
