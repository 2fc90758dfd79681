import StatusBar.Proofs.Mode.Presets
import StatusBar.Proofs.Sway.Hearing

/-!
# Following the last bar configuration

While nothing but the compositor, the outputs and the toolkit speaks to an instance, it is
in step with what is known from the compositor: `Session.Follows` says how it stands to the
configuration that is held, which is the last one that came for its bar.  A reveal counts
from when it is heard, whether or not a configuration came before.
-/

namespace StatusBar

namespace Sway

/-! ### Modes that a configuration asks for -/

variable {settings : Settings} {config : BarConfig}

/-- If the mode of a configuration is known, so is the one that it asks for. -/
theorem contains_engagedMode (hmodes : settings.Resolved)
    (h : settings.modes.contains config.mode) (revealed : Bool) :
  settings.modes.contains (config.engagedMode revealed)
  := by
  rw [BarConfig.engagedMode]
  split
  · exact hmodes.contains_invisible
  · split
    · exact hmodes.contains_invisible
    · exact h

/-- A configuration of an unknown mode asks for just that. -/
theorem engagedMode_of_unknown (hmodes : settings.Resolved)
    (h : ¬ settings.modes.contains config.mode) (revealed : Bool) :
  config.engagedMode revealed = config.mode
  := by
  rw [BarConfig.engagedMode, if_neg, if_neg]
  · rintro ⟨hhide, -⟩
    rw [hhide] at h
    exact h hmodes.contains_hide
  · intro hinvisible
    rw [hinvisible] at h
    exact h hmodes.contains_invisible

end Sway

/-! ### Sessions in step -/

namespace Session

/-- A session stands to a bar configuration as one that applied it in that mode, and heard
about reveals since. -/
structure Follows (session : Session) (config : Sway.BarConfig) (mode : String) : Prop where
  held : session.sync.config = some config
  id : config.id = session.inst.barId
  outputs : session.inst.outputs = config.outputs
  hiddenState : session.inst.hiddenState = some config.hiddenState
  known : session.inst.settings.modes.contains config.mode →
    session.inst.mode = config.engagedMode session.sync.revealed
  unknown : ¬ session.inst.settings.modes.contains config.mode → session.inst.mode = mode

variable {session : Session} {config : Sway.BarConfig}

/-- A session that applies a configuration follows it. -/
theorem follows_step (hmodes : session.inst.settings.Resolved)
    (h : config.id = session.inst.barId) :
  (session.step (.barConfig config)).value.1.Follows config session.inst.mode
  := by
  have hsync := session.sync_step (.barConfig config)
  rw [Sway.Sync.hear, if_pos h] at hsync
  obtain ⟨position, hshared⟩ := session.inst.shared_applyBarConfig h session.sync.revealed
  have hsettings :
      (session.step (.barConfig config)).value.1.inst.settings = session.inst.settings := by
    apply congrArg Instance.settings hshared
  have hmode : (session.step (.barConfig config)).value.1.inst.mode
      = session.inst.modeAfter (config.engagedMode session.sync.revealed) :=
    congrArg Instance.mode hshared
  constructor
  case held => rw [hsync]
  case id => exact h.trans (congrArg Instance.barId hshared).symm
  case outputs => exact congrArg Instance.outputs hshared
  case hiddenState => exact congrArg Instance.hiddenState hshared
  case known =>
    intro hknown
    rw [hsettings] at hknown
    rw [hmode, hsync, Instance.modeAfter, if_pos (Sway.contains_engagedMode hmodes hknown _)]
    rfl
  case unknown =>
    intro hunknown
    rw [hsettings] at hunknown
    rw [hmode, Instance.modeAfter, Sway.engagedMode_of_unknown hmodes hunknown, if_neg hunknown]

/-- What a session that follows a configuration may change without leaving it. -/
theorem Follows.of_shared {mode : String} (h : session.Follows config mode) {next : Session}
    {position : Position} {mode' : String} (hheld : next.sync.config = session.sync.config)
    (hshared : next.inst.shared
      = { session.inst.shared with position := position, mode := mode' })
    (hknown : session.inst.settings.modes.contains config.mode →
      mode' = config.engagedMode next.sync.revealed)
    (hunknown : ¬ session.inst.settings.modes.contains config.mode → mode' = mode) :
  next.Follows config mode
  := by
  have hsettings : next.inst.settings = session.inst.settings := by
    apply congrArg Instance.settings hshared
  have hmode : next.inst.mode = mode' := congrArg Instance.mode hshared
  constructor
  case held => exact hheld.trans h.held
  case id => exact h.id.trans (congrArg Instance.barId hshared).symm
  case outputs => exact (congrArg Instance.outputs hshared).trans h.outputs
  case hiddenState => exact (congrArg Instance.hiddenState hshared).trans h.hiddenState
  case known =>
    rw [hsettings, hmode]
    exact hknown
  case unknown =>
    rw [hsettings, hmode]
    exact hunknown

/-- A session that follows a configuration does so until the next one for its bar. -/
theorem Follows.step {mode : String} (h : session.Follows config mode)
    (hmodes : session.inst.settings.Resolved) {event : Event} (hdirect : ¬ event.isDirect)
    (hother : ¬ event.isConfigFor session.inst.barId) :
  (session.step event).value.1.Follows config mode
  := by
  rcases session.step_other hdirect hother with ⟨hsync, position, hshared⟩ | ⟨hheld, hinst⟩
  · apply h.of_shared _ hshared
    · rw [hsync]
      exact h.known
    · exact h.unknown
    · rw [hsync]
  · have hshared := session.inst.shared_refresh _ (hheld.trans h.held)
    rw [← hinst] at hshared
    apply h.of_shared hheld hshared
    · intro hknown
      rw [Instance.modeAfter, if_pos (Sway.contains_engagedMode hmodes hknown _)]
    · intro hunknown
      rw [Instance.modeAfter, Sway.engagedMode_of_unknown hmodes hunknown, if_neg hunknown,
        h.unknown hunknown]

/-- How a session stands after some events: no configuration came for its bar, or it
follows the last that did. -/
def InStep (start : Session) (events : List Event) (session : Session) : Prop :=
  (session.sync.config = none ∧ ∀ event ∈ events, ¬ event.isConfigFor start.inst.barId)
    ∨ ∃ earlier config later, events = earlier ++ .barConfig config :: later
      ∧ (∀ event ∈ later, ¬ event.isConfigFor start.inst.barId)
      ∧ session.Follows config (start.run earlier).value.inst.mode

theorem inStep_run (start : Session) (hmodes : start.inst.settings.Resolved)
    (hstart : start.sync.config = none) {events : List Event}
    (hdirect : ∀ event ∈ events, ¬ event.isDirect) :
  start.InStep events (start.run events).value
  := by
  apply run_induction start start.InStep (.inl ⟨hstart, List.forall_mem_nil _⟩) _ hdirect
  intro events event hevents hevent ih
  obtain ⟨hsettings, hid⟩ := fixed_run start hevents
  rw [← hsettings] at hmodes
  by_cases hown : event.isConfigFor start.inst.barId
  · cases event with
    | barConfig config =>
      right
      use events, config, [], rfl, List.forall_mem_nil _
      apply follows_step hmodes
      rw [hid]
      exact of_decide_eq_true hown
    | _ => cases hown
  · rcases ih with ⟨hnone, hno⟩ | ⟨earlier, config, later, rfl, hlater, hfollows⟩
    · left
      rw [sync_step, hid, Sway.Sync.config_hear _ _ hown]
      use hnone
      exact List.forall_mem_append.mpr ⟨hno, List.forall_mem_singleton.mpr hown⟩
    · right
      use earlier, config, later ++ [event]
      use by rw [List.append_assoc, List.cons_append]
      use List.forall_mem_append.mpr ⟨hlater, List.forall_mem_singleton.mpr hown⟩
      apply hfollows.step hmodes hevent
      rw [hid]
      exact hown

/-- In a run without direct events a session holds no configuration only if none came for
its bar.  The one that it holds is the last that did, and the instance follows it: it has
its patterns and what it says about hiding, and is in the mode that it asks for at the
present reveal if the table has its mode, else in the one from before it.  What reveals
the bar is what would if no configuration had come. -/
theorem held_config_followed {settings : Settings} (hmodes : settings.Resolved)
    (reset : ModifierReset) (events : List Event) (hdirect : ∀ event ∈ events, ¬ event.isDirect) :
  let start := ofSettings settings reset
  let session := (start.run events).value
  (session.sync.config = none → ∀ event ∈ events, ¬ event.isConfigFor session.inst.barId)
    ∧ (∀ config, session.sync.config = some config →
      ∃ earlier later, events = earlier ++ .barConfig config :: later
        ∧ (∀ event ∈ later, ¬ event.isConfigFor session.inst.barId)
        ∧ session.Follows config (start.run earlier).value.inst.mode)
    ∧ session.sync.revealed
      = (start.run (events.filter (!·.isConfig))).value.sync.revealed
  := by
  intro start session
  have hid : session.inst.barId = start.inst.barId := (fixed_run start hdirect).2
  have hreveals := reveals_run start hdirect
  rw [hid]
  constructor
  · intro hnone
    rcases inStep_run start hmodes rfl hdirect with ⟨-, hno⟩ | ⟨_, _, _, -, -, hfollows⟩
    · exact hno
    · rw [hfollows.held] at hnone
      cases hnone
  · constructor
    · intro config hheld
      rcases inStep_run start hmodes rfl hdirect with
        ⟨hnone, -⟩ | ⟨earlier, config', later, hevents, hlater, hfollows⟩
      · rw [hnone] at hheld
        cases hheld
      · rw [hfollows.held] at hheld
        cases hheld
        use earlier, later
    · apply congrArg Sway.Sync.revealed hreveals

/-- A configuration that hides its bar until it is revealed. -/
def hidingConfig : Sway.BarConfig where
  id := "bar-0"
  mode := "hide"
  hiddenState := "hide"
  position := "top"
  outputs := ["DP-1"]

/-- A run in which the bar is revealed before its configuration comes, and one for another
bar comes last. -/
def revealedFirst : List Event :=
  [.urgency true, .addOutput ⟨"DP-1", ""⟩ ⟨0, 0, 1920, 1080⟩, .barConfig hidingConfig,
   .barConfig { hidingConfig with id := "bar-1", mode := "dock" }]

/-- The urgency that came first keeps the bar in its mode. -/
theorem held_config_followed_revealedFirst :
  let session := ((ofSettings Settings.initial).run revealedFirst).value
  Settings.initial.Resolved
    ∧ (∀ event ∈ revealedFirst, ¬ event.isDirect)
    ∧ session.sync.config = some hidingConfig
    ∧ session.inst.outputs = ["DP-1"]
    ∧ session.inst.hiddenState = some "hide"
    ∧ session.inst.mode = "hide"
  := by
  intro session
  have hmodes : Settings.initial.Resolved := Settings.resolved_initial
  have hdirect : ∀ event ∈ revealedFirst, ¬ event.isDirect := by decide
  have hheld : session.sync.config = some hidingConfig := by decide
  obtain ⟨-, hfollowed, hrevealed⟩ := held_config_followed hmodes _ revealedFirst hdirect
  obtain ⟨earlier, later, -, -, hfollows⟩ := hfollowed hidingConfig hheld
  use hmodes, hdirect, hheld, hfollows.outputs, hfollows.hiddenState
  rw [hfollows.known (by decide), hrevealed]
  decide

end Session

end StatusBar
