import StatusBar.Proofs.Instance.Shared
import StatusBar.Proofs.Surface.Recording

/-!
# What operations on all bars maintain

An operation of an instance changes all its bars alike.  So what every change of one bar
maintains of the bar and of what its surface shows, given the mode and the position that
the bars share, is maintained by every such operation: `Bar.Maintained` lists the changes
of one bar, and `Instance.Meets` is what follows for the instance.
-/

namespace StatusBar

/-- What may hold of a bar and of what its surface shows, by the mode and the position
that the bars share. -/
abbrev Expectation := (mode : String) → Position → Bar → Display → Prop

/-- A new bar is as expected, and so is every bar after a change that the expectation
follows.  A bar moves only where the settings leave its position open, and to where its
modules keep their direction. -/
structure Bar.Maintained (settings : Settings) (expected : Expectation) : Prop where
  create : ∀ output monitor position mode,
    let step := create settings output monitor position mode
    expected mode position step.value (.replay (requestsTo output.name step.log))
  changeMode : ∀ {mode position bar display} (mode' : String),
    expected mode position bar display →
      let step := bar.changeMode settings mode'
      expected mode' position step.value
        (display.receiveAll (requestsTo bar.output.name step.log))
  changePosition : ∀ {mode position bar display} (position' : Position),
    settings.position = none → position'.orientation = position.orientation →
    expected mode position bar display →
      let step := bar.changePosition settings position'
      expected mode position' step.value
        (display.receiveAll (requestsTo bar.output.name step.log))
  configure : ∀ {mode position bar display} (size : Size),
    expected mode position bar display →
      expected mode position (bar.configure settings size).value display
  changeMonitor : ∀ {mode position bar display} (monitor : Rect),
    expected mode position bar display →
      expected mode position (bar.changeMonitor settings monitor) display

namespace Instance

/-- The instance runs with these settings, no two of its bars are on outputs of one name,
and each is as expected. -/
structure Meets (inst : Instance) (settings : Settings) (expected : Expectation)
    (received : Recording) : Prop where
  settings : inst.settings = settings
  bars : Recorded inst.bars received (expected inst.mode inst.position)

namespace Meets

variable {inst : Instance} {settings : Settings} {expected : Expectation}
  {received : Recording}

theorem ofSettings :
  (Instance.ofSettings settings).Meets settings expected received
  := ⟨rfl, .nil⟩

/-- Bars may go. -/
theorem filter (h : inst.Meets settings expected received) (keep : Bar → Bool) :
  Instance.Meets { inst with bars := inst.bars.filter keep } settings expected received
  := ⟨h.settings, h.bars.filter keep⟩

/-- A change of all bars, together with what they share. -/
theorem onBars {mode : String} {position : Position} {change : Bar → Step Bar}
    (hsettings : inst.settings = settings)
    (hbars : Recorded inst.bars received (expected mode position))
    (hchange : Bar.Confined change)
    (hexpected : ∀ bar display, expected mode position bar display →
      expected inst.mode inst.position (change bar).value
        (display.receiveAll (requestsTo bar.output.name (change bar).log))) :
  (inst.onBars change).Leads received fun inst received =>
    inst.Meets settings expected received
  := by
  apply Logged.Leads.bind (hbars.each hchange hexpected)
  intro bars received hbars
  apply Logged.Leads.pure
  exact ⟨hsettings, hbars⟩

/-- A change of one bar that asks nothing of its surface. -/
theorem onBar {change : Bar → Step Bar} (h : inst.Meets settings expected received)
    (name : String) (hchange : Bar.Confined change)
    (hrequests : ∀ bar, requestsTo bar.output.name (change bar).log = [])
    (hexpected : ∀ bar display, expected inst.mode inst.position bar display →
      expected inst.mode inst.position (change bar).value display) :
  (inst.onBar name change).Leads received fun result received =>
    result.1.Meets settings expected received
  := by
  have honBars : (Prod.fst <$> inst.onBar name change).Leads received fun inst received =>
      inst.Meets settings expected received := by
    rw [onBar_eq_onBars inst name change h.bars.names]
    apply onBars h.settings h.bars (hchange.ite _)
    intro bar display hbar
    split
    · rw [hrequests, Display.receiveAll_nil]
      apply hexpected bar display hbar
    · exact hbar
  rw [Logged.Leads, Logged.log_map] at honBars
  exact honBars

variable (hexpected : Bar.Maintained settings expected)

include hexpected

theorem addOutput (h : inst.Meets settings expected received)
    (hnew : ∀ name, inst.hasBar name = false → received name = []) (output : Output)
    (monitor : Rect) :
  (inst.addOutput output monitor).Leads received fun result received =>
    result.1.Meets settings expected received
  := by
  rw [Instance.addOutput]
  split
  case isTrue hadd =>
    obtain ⟨-, hhas⟩ := Bool.and_eq_true_iff.mp hadd
    have hhas : inst.hasBar output.name = false := by simpa using hhas
    have hother : ∀ bar ∈ inst.bars, bar.output.name ≠ output.name := by
      simpa [hasBar] using hhas
    have hcreate : (Bar.create inst.settings output monitor inst.position inst.mode).Leads received
        fun bar received =>
          Recorded (inst.bars ++ [bar]) received (expected inst.mode inst.position) := by
      rw [Logged.Leads]
      apply Recorded.append
      · apply h.bars.congr
        intro bar hbar
        rw [Recording.after, Bar.requestsTo_create_other (hother bar hbar).symm, List.append_nil]
      · exact hother
      · rw [h.settings, Recording.display, Recording.after]
        change expected _ _ _ (.replay (received output.name ++ requestsTo output.name _))
        rw [hnew _ hhas, List.nil_append]
        apply hexpected.create
    apply Logged.Leads.bind hcreate
    intro bar received hbars
    apply Logged.Leads.pure
    exact ⟨h.settings, hbars⟩
  case isFalse =>
    apply Logged.Leads.pure h

theorem setMode (h : inst.Meets settings expected received) (mode : String) :
  (inst.setMode mode).Leads received fun inst received =>
    inst.Meets settings expected received
  := by
  rw [Instance.setMode]
  split
  · apply Logged.Leads.ofLog _ h
    intro name
    rfl
  · split
    · apply Logged.Leads.pure h
    · apply onBars
      · exact h.settings
      · exact h.bars
      · apply Bar.confined_changeMode
      · intro bar display hbar
        rw [h.settings]
        apply hexpected.changeMode mode hbar

theorem moveTo (h : inst.Meets settings expected received) (position : Position) :
  (inst.moveTo position).Leads received fun inst received =>
    inst.Meets settings expected received
  := by
  rw [Instance.moveTo]
  split
  case isTrue => apply Logged.Leads.pure h
  case isFalse hmoves =>
    have hopen : settings.position = none := by
      rw [← h.settings]
      apply open_of_moves hmoves
    split
    · apply Logged.Leads.ofLog _ h
      intro name
      rfl
    case isFalse horientation =>
      apply onBars
      · exact h.settings
      · exact h.bars
      · apply Bar.confined_changePosition
      · intro bar display hbar
        rw [h.settings]
        apply hexpected.changePosition position hopen (not_not.mp horientation) hbar

theorem setPosition (h : inst.Meets settings expected received) (name : String) :
  (inst.setPosition name).Leads received fun inst received =>
    inst.Meets settings expected received
  := by
  rw [Instance.setPosition]
  split
  · apply h.moveTo hexpected
  · apply Logged.Leads.pure h

theorem configure (h : inst.Meets settings expected received) (name : String) (size : Size) :
  (inst.configure name size).Leads received fun inst received =>
    inst.Meets settings expected received
  := by
  rw [Instance.configure]
  split
  · apply Logged.Leads.map
    apply h.onBar name
    · apply Bar.confined_configure
    · intro bar
      apply Bar.requestsTo_configure
    · intro bar display hbar
      rw [h.settings]
      apply hexpected.configure size hbar
  · apply Logged.Leads.ofLog _ h
    intro name
    rfl

theorem changeMonitor (h : inst.Meets settings expected received) (name : String)
    (monitor : Rect) :
  (inst.changeMonitor name monitor).Leads received fun result received =>
    result.1.Meets settings expected received
  := by
  apply h.onBar name
  · apply Bar.confined_changeMonitor
  · intro bar
    rfl
  · intro bar display hbar
    rw [h.settings]
    apply hexpected.changeMonitor monitor hbar

theorem applyBarConfig (h : inst.Meets settings expected received) (config : Sway.BarConfig)
    (revealed : Bool) :
  (inst.applyBarConfig config revealed).Leads received fun result received =>
    result.1.Meets settings expected received
  := by
  rw [Instance.applyBarConfig]
  split
  · apply Logged.Leads.pure h
  · have houtputs : (inst.setOutputs config.outputs).Meets settings expected received :=
      ⟨h.settings, h.bars.filter _⟩
    apply Logged.Leads.bind (houtputs.setPosition hexpected config.position)
    intro inst received h
    have hhidden : Meets { inst with hiddenState := some config.hiddenState } settings expected
        received := ⟨h.settings, h.bars⟩
    apply Logged.Leads.bind (hhidden.setMode hexpected _)
    intro inst received h
    apply Logged.Leads.pure h

theorem refresh (h : inst.Meets settings expected received) (sync : Sway.Sync) :
  (sync.refresh inst).Leads received fun inst received =>
    inst.Meets settings expected received
  := by
  rw [Sway.Sync.refresh]
  split
  · apply Logged.Leads.pure h
  · apply h.setMode hexpected

end Meets

end Instance

end StatusBar
