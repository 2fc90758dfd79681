import StatusBar.Proofs.Instance.Shared
import StatusBar.Proofs.Session.Run

/-!
# What a session hears from the compositor

What is known from the compositor changes with the events alone: `Sway.Sync.hear` says how,
without the bars.  An event that does not set the instance directly leaves its settings and
its id, and is either a bar configuration for the bar, or about outputs and sizes, or
about what asks for a hidden bar.
-/

namespace StatusBar

namespace Session.Event

/-- Whether an event sets the mode, the patterns or the id of an instance past the
compositor. -/
def isDirect : Event → Bool
  | .setMode _ => true
  | .setVisible _ => true
  | .toggle => true
  | .setOutputs _ => true
  | .setStartedBarId _ => true
  | .applyBarConfig _ _ => true
  | _ => false

/-- Whether an event is that a bar configuration arrives. -/
def isConfig : Event → Bool
  | .barConfig _ => true
  | _ => false

/-- Whether an event is that a configuration for the bar of that id arrives. -/
def isConfigFor (barId : String) : Event → Bool
  | .barConfig config => config.id = barId
  | _ => false

end Session.Event

namespace Sway.Sync

open Session (Event)

/-- What is known after an event, at the bar of that id. -/
def hear (barId : String) (sync : Sync) : Event → Sync
  | .barConfig config => if config.id = barId then { sync with config := some config } else sync
  | .barStateUpdate update =>
    if update.id = barId then sync.modifierTo update.visibleByModifier else sync
  | .modeChange change => sync.bindingModeTo change.change
  | .urgency urgent => sync.urgencyTo urgent
  | _ => sync

/-- Only a configuration for the bar replaces the one that is held. -/
theorem config_hear (barId : String) (sync : Sync) {event : Event}
    (h : ¬ event.isConfigFor barId) :
  (sync.hear barId event).config = sync.config
  := by
  cases event with
  | barConfig config =>
    rw [hear, if_neg]
    simpa [Event.isConfigFor] using h
  | barStateUpdate update =>
    rw [hear]
    split
    · rfl
    · rfl
  | _ => rfl

/-- What is known apart from the configuration. -/
def reveals (sync : Sync) : Sync :=
  { sync with config := none }

/-- A configuration says nothing about what asks for a hidden bar. -/
theorem reveals_hear_config (barId : String) (sync : Sync) {event : Event}
    (h : event.isConfig) :
  (sync.hear barId event).reveals = sync.reveals
  := by
  cases event with
  | barConfig config =>
    rw [hear]
    split
    · rfl
    · rfl
  | _ => cases h

/-- What asks for a hidden bar is heard alike with a configuration and without. -/
theorem reveals_hear (barId : String) (sync : Sync) {event : Event} (h : ¬ event.isConfig) :
  (sync.hear barId event).reveals = sync.reveals.hear barId event
  := by
  cases event with
  | barConfig config => cases h rfl
  | barStateUpdate update =>
    rw [hear, hear]
    split
    · rfl
    · rfl
  | _ => rfl

end Sway.Sync

namespace Session

/-- What is known after an event does not depend on the bars. -/
theorem sync_step (session : Session) (event : Event) :
  (session.step event).value.1.sync = session.sync.hear session.inst.barId event
  := by
  cases event with
  | barConfig config =>
    change (if (session.inst.applyBarConfig config session.sync.revealed).value.2 then _ else _) = _
    rw [Instance.applied_applyBarConfig]
    simp only [decide_eq_true_eq]
    rfl
  | barStateUpdate update =>
    rw [step, Sway.Sync.onBarStateUpdate, Sway.Sync.hear]
    by_cases h : update.id = session.inst.barId
    · rw [if_neg (not_not_intro h), if_pos h]
      rfl
    · rw [if_pos h, if_neg h]
      rfl
  | _ => rfl

/-- An event that is no configuration for the bar either says nothing about it and leaves
all but the position, or it may change what asks for a hidden bar. -/
theorem step_other (session : Session) {event : Event} (hdirect : ¬ event.isDirect)
    (hother : ¬ event.isConfigFor session.inst.barId) :
  let next := (session.step event).value.1
  (next.sync = session.sync
      ∧ ∃ position, next.inst.shared = { session.inst.shared with position := position })
    ∨ (next.sync.config = session.sync.config
      ∧ next.inst = (next.sync.refresh session.inst).value)
  := by
  intro next
  cases event with
  | addOutput output monitor =>
    exact .inl ⟨rfl, session.inst.position, session.inst.shared_addOutput output monitor⟩
  | removeOutput name => exact .inl ⟨rfl, session.inst.position, rfl⟩
  | setPosition name => exact .inl ⟨rfl, session.inst.shared_setPosition name⟩
  | configure name size =>
    exact .inl ⟨rfl, session.inst.position, session.inst.shared_configure name size⟩
  | changeMonitor name monitor => exact .inl ⟨rfl, session.inst.position, rfl⟩
  | setBarMode name mode => exact .inl ⟨rfl, session.inst.position, rfl⟩
  | setBarPosition name position => exact .inl ⟨rfl, session.inst.position, rfl⟩
  | barConfig config =>
    have hid : config.id ≠ session.inst.barId := by
      simpa [Event.isConfigFor] using hother
    have hnext : next = session := by
      change (handling (session.sync.onBarConfig session.inst config)).value.1 = _
      rw [Sway.Sync.onBarConfig, Instance.applyBarConfig, if_pos hid]
      rfl
    rw [hnext]
    exact .inl ⟨rfl, session.inst.position, rfl⟩
  | barStateUpdate update =>
    by_cases hid : update.id = session.inst.barId
    · have hnext : next = (handling ((session.sync.modifierTo
          update.visibleByModifier).andRefresh session.inst)).value.1 := by
        change (handling (session.sync.onBarStateUpdate session.inst update)).value.1 = _
        rw [Sway.Sync.onBarStateUpdate, if_neg (not_not_intro hid)]
      rw [hnext]
      exact .inr ⟨rfl, rfl⟩
    · have hnext : next = session := by
        change (handling (session.sync.onBarStateUpdate session.inst update)).value.1 = _
        rw [Sway.Sync.onBarStateUpdate, if_pos hid]
        rfl
      rw [hnext]
      exact .inl ⟨rfl, session.inst.position, rfl⟩
  | modeChange change => exact .inr ⟨rfl, rfl⟩
  | urgency urgent => exact .inr ⟨rfl, rfl⟩
  | _ => cases hdirect rfl

/-- No event but a direct one changes the settings and the id. -/
theorem fixed_step (session : Session) {event : Event} (hdirect : ¬ event.isDirect) :
  let next := (session.step event).value.1
  next.inst.settings = session.inst.settings ∧ next.inst.barId = session.inst.barId
  := by
  intro next
  have hkept : ∃ position mode outputs hiddenState,
      next.inst.shared = { session.inst.shared with
        position := position, mode := mode, outputs := outputs, hiddenState := hiddenState } := by
    by_cases hown : event.isConfigFor session.inst.barId
    · cases event with
      | barConfig config =>
        obtain ⟨position, hshared⟩ :=
          session.inst.shared_applyBarConfig (of_decide_eq_true hown) session.sync.revealed
        exact ⟨position, _, _, _, hshared⟩
      | _ => cases hown
    · rcases session.step_other hdirect hown with ⟨-, position, hshared⟩ | ⟨-, hinst⟩
      · exact ⟨position, _, _, _, hshared⟩
      · change next.inst = (next.sync.refresh session.inst).value at hinst
        rw [hinst]
        cases hheld : next.sync.config with
        | none =>
          rw [Sway.Sync.refresh, hheld]
          exact ⟨session.inst.position, _, _, _, rfl⟩
        | some config =>
          exact ⟨session.inst.position, _, _, _, session.inst.shared_refresh next.sync hheld⟩
  obtain ⟨position, mode, outputs, hiddenState, hshared⟩ := hkept
  constructor
  · apply congrArg Instance.settings hshared
  · apply congrArg Instance.barId hshared

theorem fixed_run (start : Session) {events : List Event}
    (hdirect : ∀ event ∈ events, ¬ event.isDirect) :
  let session := (start.run events).value
  session.inst.settings = start.inst.settings ∧ session.inst.barId = start.inst.barId
  := by
  apply run_induction start (fun _ session =>
    session.inst.settings = start.inst.settings ∧ session.inst.barId = start.inst.barId)
    ⟨rfl, rfl⟩ _ hdirect
  intro events event _ hevent ih
  obtain ⟨hsettings, hid⟩ := (start.run events).value.fixed_step hevent
  exact ⟨hsettings.trans ih.1, hid.trans ih.2⟩

/-- What asks for a hidden bar is what it would be without any configuration. -/
theorem reveals_run (start : Session) {events : List Event}
    (hdirect : ∀ event ∈ events, ¬ event.isDirect) :
  (start.run events).value.sync.reveals
    = (start.run (events.filter (!·.isConfig))).value.sync.reveals
  := by
  apply run_induction start (fun events session => session.sync.reveals
    = (start.run (events.filter (!·.isConfig))).value.sync.reveals) rfl _ hdirect
  intro events event hevents _ ih
  have hfiltered : ∀ event ∈ events.filter (!·.isConfig), ¬ event.isDirect := by
    intro event hmem
    apply hevents event (List.mem_filter.mp hmem).1
  rw [List.filter_append, sync_step, (fixed_run start hevents).2]
  by_cases hconfig : event.isConfig
  · rw [Sway.Sync.reveals_hear_config _ _ hconfig, ih]
    simp [hconfig]
  · have hkept : [event].filter (!·.isConfig) = [event] := by simp [hconfig]
    rw [Sway.Sync.reveals_hear _ _ hconfig, ih, hkept, value_run_concat, sync_step,
      (fixed_run start hfiltered).2, Sway.Sync.reveals_hear _ _ hconfig]

end Session

end StatusBar
