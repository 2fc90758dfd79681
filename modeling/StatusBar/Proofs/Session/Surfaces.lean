import StatusBar.Proofs.Mode.Presets
import StatusBar.Proofs.Session.Watched

/-!
# Surfaces follow their bars

Over a run of events for all bars, every bar engages the mode of its instance, or the
default where the mode table lacks that one, and stands where the instance does.  Its
surface shows the flags of that mode and the edges of that position, however many changes
it has seen.  So the surface of a bar that came late shows what one shows that was there
from the start; only a layer that the mode does not name is left from before.
-/

namespace StatusBar

/-- A surface shows the flags of a mode, the edges of a position, and the fixed margins and
size.  A mode without a layer leaves the layer open. -/
structure Display.Follows (settings : Settings) (mode : Mode) (position : Position)
    (display : Display) : Prop where
  layer : ∀ layer, mode.layer = some layer → display.layer = some layer
  exclusive : display.exclusive = some mode.exclusive
  passthrough : display.passthrough = some mode.passthrough
  visible : display.visible = some mode.visible
  anchors : display.anchors = some (.ofPosition position settings.size)
  margins : display.margins = some settings.margins
  size : display.size = some settings.size

/-- Two surfaces show the same of all that a mode, a position and the settings fix. -/
structure Display.Alike (mode : Mode) (display display' : Display) : Prop where
  layer : mode.layer.isSome → display.layer = display'.layer
  exclusive : display.exclusive = display'.exclusive
  passthrough : display.passthrough = display'.passthrough
  visible : display.visible = display'.visible
  anchors : display.anchors = display'.anchors
  margins : display.margins = display'.margins
  size : display.size = display'.size

namespace Display

variable {settings : Settings} {mode : Mode} {position : Position} {display display' : Display}

theorem Follows.alike (h : display.Follows settings mode position)
    (h' : display'.Follows settings mode position) :
  display.Alike mode display'
  := by
  constructor
  case layer =>
    intro hlayer
    obtain ⟨layer, hlayer⟩ := Option.isSome_iff_exists.mp hlayer
    rw [h.layer layer hlayer, h'.layer layer hlayer]
  case exclusive => rw [h.exclusive, h'.exclusive]
  case passthrough => rw [h.passthrough, h'.passthrough]
  case visible => rw [h.visible, h'.visible]
  case anchors => rw [h.anchors, h'.anchors]
  case margins => rw [h.margins, h'.margins]
  case size => rw [h.size, h'.size]

/-- Once a surface has its edges, margins and size, engaging a mode makes it follow. -/
theorem follows_mode (hanchors : display.anchors = some (.ofPosition position settings.size))
    (hmargins : display.margins = some settings.margins)
    (hsize : display.size = some settings.size) (removed added : String) :
  (display.receiveAll (.removeClass removed :: .addClass added :: mode.requests)).Follows
    settings mode position
  := by
  rw [receiveAll_cons, receiveAll_cons, receiveAll_mode]
  constructor
  case layer =>
    intro layer hlayer
    rw [hlayer]
    rfl
  case exclusive => rfl
  case passthrough => rfl
  case visible => rfl
  case anchors => exact hanchors
  case margins => exact hmargins
  case size => exact hsize

theorem Follows.moved (h : display.Follows settings mode position) (position' : Position)
    (removed added : String) :
  (display.receiveAll
      [.removeClass removed, .addClass added, .anchors (.ofPosition position' settings.size)]).Follows
    settings mode position'
  := by
  constructor
  case layer => exact h.layer
  case exclusive => exact h.exclusive
  case passthrough => exact h.passthrough
  case visible => exact h.visible
  case anchors => rfl
  case margins => exact h.margins
  case size => exact h.size

end Display

namespace Bar

/-- The flags that the settings have for the mode of a bar. -/
def flags (settings : Settings) (bar : Bar) : Mode :=
  (settings.modes.get? bar.mode).getD {}

/-- A bar engages the mode and stands at the position that the bars share, and its surface
follows. -/
structure Follows (settings : Settings) (mode : String) (position : Position) (bar : Bar)
    (display : Display) : Prop where
  engages : bar.mode = settings.modes.engaged mode
  stands : bar.position = position
  shows : display.Follows settings (settings.modes.flags mode) position

theorem maintained_follows (settings : Settings) :
  Maintained settings (Follows settings)
  := by
  constructor
  case create =>
    intro output monitor position mode
    constructor
    · rfl
    · rfl
    · rw [requestsTo_create, Display.replay, Display.receiveAll_append,
        Display.receiveAll_append, Display.receiveAll_openingRequests]
      apply Display.follows_mode
      · rfl
      · rfl
      · rfl
  case changeMode =>
    intro mode position bar display mode' h
    constructor
    · rfl
    · exact h.stands
    · rw [requestsTo_changeMode]
      apply Display.follows_mode h.shows.anchors h.shows.margins h.shows.size
  case changePosition =>
    intro mode position bar display position' _ _ h
    constructor
    · exact h.engages
    · rfl
    · rw [requestsTo_changePosition]
      apply h.shows.moved
  case configure =>
    intro mode position bar display size h
    exact ⟨h.engages, h.stands, h.shows⟩
  case changeMonitor =>
    intro mode position bar display monitor h
    exact ⟨h.engages, h.stands, h.shows⟩

end Bar

namespace Watched

open Session (Event)

/-- In every run all bars follow what the instance says. -/
theorem meets_follows (settings : Settings) (reset : ModifierReset) (events : List Event)
    (hshared : ∀ event ∈ events, event.isShared) :
  ((ofSettings settings reset).run events).inst.Meets settings (Bar.Follows settings)
    ((ofSettings settings reset).run events).received
  := meets_ofSettings (Bar.maintained_follows settings) reset events hshared

/-- After every run each surface shows what the mode of its bar, the position of the
instance and the settings say, and all surfaces show the same of it. -/
theorem surfaces_follow (settings : Settings) (reset : ModifierReset) (events : List Event)
    (hshared : ∀ event ∈ events, event.isShared) :
  let watched := (ofSettings settings reset).run events
  let inst := watched.inst
  (∀ bar ∈ inst.bars,
    bar.mode = (if settings.modes.contains inst.mode then inst.mode else Mode.defaultName)
      ∧ (settings.modes.contains Mode.defaultName → settings.modes.contains bar.mode)
      ∧ (watched.display bar).Follows settings (bar.flags settings) inst.position)
    ∧ ∀ bar ∈ inst.bars, ∀ bar' ∈ inst.bars,
      bar.mode = bar'.mode
        ∧ (watched.display bar).Alike (bar.flags settings) (watched.display bar')
  := by
  intro watched inst
  have hbars : ∀ bar ∈ inst.bars,
      bar.Follows settings inst.mode inst.position (watched.display bar) :=
    (meets_follows settings reset events hshared).bars.good
  have hflags : ∀ bar ∈ inst.bars, bar.flags settings = settings.modes.flags inst.mode := by
    intro bar hbar
    rw [Bar.flags, (hbars bar hbar).engages, ModeTable.flags]
  constructor
  · intro bar hbar
    have h := hbars bar hbar
    use h.engages
    constructor
    · intro hdefault
      rw [h.engages]
      apply ModeTable.contains_engaged _ _ hdefault
    · rw [hflags bar hbar]
      exact h.shows
  · intro bar hbar bar' hbar'
    constructor
    · rw [(hbars bar hbar).engages, (hbars bar' hbar').engages]
    · rw [hflags bar hbar]
      apply (hbars bar hbar).shows.alike (hbars bar' hbar').shows

/-- A run in which a second bar comes while the first one is hidden. -/
def lateBar : List Event :=
  [.addOutput ⟨"DP-1", ""⟩ ⟨0, 0, 1920, 1080⟩, .setVisible false,
   .addOutput ⟨"DP-2", ""⟩ ⟨1920, 0, 1920, 1080⟩, .setPosition "bottom", .setVisible true]

/-- The bar that comes late ends with the flags and the edges of the other. -/
theorem surfaces_follow_lateBar :
  let settings := { Settings.initial with mode := some "dock" }
  let watched := (ofSettings settings).run lateBar
  (∀ event ∈ lateBar, event.isShared)
    ∧ watched.inst.bars.map (·.output.name) = ["DP-1", "DP-2"]
    ∧ ∀ bar ∈ watched.inst.bars,
      bar.mode = "dock"
        ∧ (watched.display bar).Follows settings ⟨some .bottom, true, false, true⟩ .bottom
        ∧ ∀ bar' ∈ watched.inst.bars,
          (watched.display bar).Alike ⟨some .bottom, true, false, true⟩ (watched.display bar')
  := by
  intro settings watched
  have hshared : ∀ event ∈ lateBar, event.isShared := by decide
  have hmode : watched.inst.mode = "dock" := by decide
  have hposition : watched.inst.position = .bottom := by decide
  have hdock : settings.modes.contains "dock" := by decide
  obtain ⟨heach, hpairs⟩ := surfaces_follow settings _ lateBar hshared
  use hshared
  constructor
  · decide
  · intro bar hbar
    obtain ⟨hbarMode, -, hfollows⟩ := heach bar hbar
    rw [hmode, if_pos hdock] at hbarMode
    have hflags : bar.flags settings = ⟨some .bottom, true, false, true⟩ := by
      rw [Bar.flags, hbarMode]
      rfl
    rw [hflags] at hfollows
    rw [← hposition]
    use hbarMode, hfollows
    intro bar' hbar'
    obtain ⟨-, halike⟩ := hpairs bar hbar bar' hbar'
    rw [hflags] at halike
    exact halike

end Watched

namespace Session

/-- The bars of every run engage the mode of the instance, which keeps its settings. -/
theorem engages_run (settings : Settings) (reset : ModifierReset) (events : List Event)
    (hshared : ∀ event ∈ events, event.isShared) :
  let inst := ((ofSettings settings reset).run events).value.inst
  inst.settings = settings ∧ ∀ bar ∈ inst.bars, bar.mode = settings.modes.engaged inst.mode
  := by
  have h := Watched.meets_follows settings reset events hshared
  rw [Watched.inst_run] at h
  use h.settings
  intro bar hbar
  apply (h.bars.good bar hbar).engages

end Session

end StatusBar
