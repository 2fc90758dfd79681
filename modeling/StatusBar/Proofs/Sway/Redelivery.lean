import Mathlib.Data.List.Destutter
import StatusBar.Proofs.Instance.Settled
import StatusBar.Proofs.Sway.Foreign
import StatusBar.Proofs.Sway.Reveal

/-!
# Events that come twice

The compositor may say the same twice in a row.  Whatever the state of a session, the
second time finds everything as it asks for it: the first time has left the session so that
the event `Rests`.  So a run goes the same way without what only repeats the event before
it.
-/

namespace StatusBar

namespace Session.Event

/-- Whether an event comes from the compositor. -/
def isHeard : Event → Bool
  | .barConfig _ => true
  | .barStateUpdate _ => true
  | .modeChange _ => true
  | .urgency _ => true
  | _ => false

/-- What is heard is for another bar, a configuration for this one, or about what asks for
it. -/
theorem heard_cases {event : Event} (h : event.isHeard) (barId : String) :
  event.isForeign barId ∨ event.isConfigFor barId ∨ event.isAsking barId
  := by
  cases event with
  | barConfig config =>
    by_cases hid : config.id = barId
    · exact .inr (.inl (decide_eq_true hid))
    · exact .inl (decide_eq_true hid)
  | barStateUpdate update =>
    by_cases hid : update.id = barId
    · simp [isAsking, modifier?, hid]
    · exact .inl (decide_eq_true hid)
  | modeChange change => exact .inr (.inr rfl)
  | urgency urgent => exact .inr (.inr rfl)
  | _ => cases h

end Session.Event

namespace Sway.Sync

open Session (Event)

variable {barId : String} {sync : Sync} {inst : Instance}

/-- A modifier that is heard of once more in the same place does not clear more. -/
theorem modifierTo_modifierTo (sync : Sync) (pressed : Bool) :
  (sync.modifierTo pressed).modifierTo pressed = sync.modifierTo pressed
  := by
  have hurgency : (sync.modifierTo pressed).urgencyAfter pressed = sync.urgencyAfter pressed := by
    obtain ⟨config, reset, modifier, mode, urgency, alone⟩ := sync
    cases reset with
    | press => cases pressed <;> rfl
    | release => cases pressed <;> simp [modifierTo, urgencyAfter]
  rw [modifierTo, hurgency]
  simp [modifierTo]

/-- What is known is what it would be if the last event had come once more. -/
theorem hear_hear (barId : String) (sync : Sync) (event : Event) :
  (sync.hear barId event).hear barId event = sync.hear barId event
  := by
  cases event with
  | barConfig config =>
    rw [hear]
    split
    case isTrue hid => rw [hear, if_pos hid]
    case isFalse hid => rw [hear, if_neg hid]
  | barStateUpdate update =>
    rw [hear]
    split
    case isTrue hid =>
      rw [hear, if_pos hid]
      apply modifierTo_modifierTo
    case isFalse hid => rw [hear, if_neg hid]
  | _ => rfl

/-- The instance engages the mode that the configuration which is held asks for, or the mode
table lacks that. -/
def Settles (sync : Sync) (inst : Instance) : Prop :=
  ∀ config, sync.config = some config →
    inst.modeAfter (config.engagedMode sync.revealed) = inst.mode

theorem settles_refresh (sync : Sync) (inst : Instance) :
  sync.Settles (sync.refresh inst).value
  := by
  intro config hheld
  rw [refresh, hheld]
  apply Instance.modeAfter_setMode

theorem Settles.andRefresh_rests (h : sync.Settles inst) :
  (sync.andRefresh inst).Rests (sync, inst)
  := by
  have hrefresh : (sync.refresh inst).Rests inst := by
    rw [refresh]
    split
    case h_1 => apply Logged.Rests.pure
    case h_2 config hheld => apply Instance.setMode_rests (h config hheld)
  apply Logged.Rests.bind hrefresh
  apply Logged.Rests.pure

end Sway.Sync

namespace Session

variable {event : Event}

/-- An event about what asks for the bar is heard, and the instance follows. -/
theorem step_asking (session : Session) (h : event.isAsking session.inst.barId) :
  session.step event
    = handling ((session.sync.hear session.inst.barId event).andRefresh session.inst)
  := by
  cases event with
  | barStateUpdate update =>
    have hid : update.id = session.inst.barId := by
      simpa [Event.isAsking, Event.modifier?, Event.bindingMode?, Event.urgency?] using h
    rw [step, Sway.Sync.onBarStateUpdate, if_neg (not_not_intro hid), Sway.Sync.hear,
      if_pos hid]
  | modeChange change => rfl
  | urgency urgent => rfl
  | _ => cases h

/-- A handler that leaves both parts leaves the session. -/
theorem handling_rests {session : Session} {step : Step (Sway.Sync × Instance)}
    (h : step.Rests (session.sync, session.inst)) :
  (Prod.fst <$> handling step).Rests session
  := by
  rw [handling, map_bind]
  apply Logged.Rests.bind h
  apply Logged.Rests.pure

theorem foreign_rests_again (session : Session) (h : event.isForeign session.inst.barId) :
  let once := (session.step event).value.1
  (Prod.fst <$> once.step event).Rests once
  := by
  intro once
  have honce : once = session := session.value_step_foreign h
  rw [honce, session.step_foreign h]
  apply Logged.Rests.pure

/-- The configuration is held, and the instance is as it leaves it. -/
theorem config_rests_again (session : Session) (h : event.isConfigFor session.inst.barId) :
  let once := (session.step event).value.1
  (Prod.fst <$> once.step event).Rests once
  := by
  intro once
  cases event with
  | barConfig config =>
    have hid : config.id = session.inst.barId := of_decide_eq_true h
    have hsync : once.sync = { session.sync with config := some config } := by
      apply (session.sync_step _).trans
      rw [Sway.Sync.hear, if_pos hid]
    have hheld : { once.sync with config := some config } = once.sync := by
      rw [hsync]
    have happlied : once.inst.Applied config once.sync.revealed := by
      rw [hsync]
      apply Instance.applied_after_applyBarConfig hid
    apply handling_rests
    apply Logged.Rests.bind happlied.rests
    change (pure ({ once.sync with config := some config }, once.inst) : Step _).Rests _
    rw [hheld]
    apply Logged.Rests.pure
  | _ => cases h

/-- What asks for the bar is known, and the instance engages the mode that follows. -/
theorem asking_rests_again (session : Session) (h : event.isAsking session.inst.barId) :
  let once := (session.step event).value.1
  (Prod.fst <$> once.step event).Rests once
  := by
  intro once
  have honce : once = (handling ((session.sync.hear session.inst.barId event).andRefresh
      session.inst)).value.1 := by
    apply congrArg (fun step => step.value.1) (session.step_asking h)
  have hid : once.inst.barId = session.inst.barId := by
    apply session.barId_step
    cases event with
    | setStartedBarId id => cases h
    | _ => exact Bool.false_ne_true
  have hsync : once.sync = session.sync.hear once.inst.barId event := by
    rw [hid]
    apply session.sync_step
  have hsettles : once.sync.Settles once.inst := by
    rw [honce]
    apply Sway.Sync.settles_refresh
  rw [← hid] at h
  rw [once.step_asking h, hsync, Sway.Sync.hear_hear, ← hsync]
  apply handling_rests hsettles.andRefresh_rests

/-- What the compositor says again rests. -/
theorem rests_again (session : Session) (h : event.isHeard) :
  let once := (session.step event).value.1
  (Prod.fst <$> once.step event).Rests once
  := by
  rcases Event.heard_cases h session.inst.barId with hforeign | hconfig | hasking
  · apply session.foreign_rests_again hforeign
  · apply session.config_rests_again hconfig
  · apply session.asking_rests_again hasking

/-! ### Runs with repetitions -/

/-- What the compositor says again makes no difference to what follows. -/
theorem run_again (session : Session) (h : event.isHeard) (later : List Event) :
  (session.run (event :: event :: later)).Alike (session.run (event :: later))
  := by
  rw [run_cons, run_cons session event later]
  apply Logged.Alike.bind
  rw [run_cons]
  apply (session.rests_again h).alike_bind

/-- Whether an event does not just repeat what the compositor said before. -/
def Event.IsNews (before event : Event) : Prop :=
  ¬ (event.isHeard ∧ event = before)

instance : DecidableRel Event.IsNews :=
  fun before event => inferInstanceAs (Decidable (¬ (event.isHeard ∧ event = before)))

/-- A run goes the same way without what only repeats the event before it. -/
theorem run_destutter (session : Session) (events : List Event) :
  (session.run events).Alike (session.run (events.destutter Event.IsNews))
  := by
  cases events with
  | nil => apply Logged.Alike.refl
  | cons event events =>
    rw [List.destutter_cons']
    induction events generalizing session event with
    | nil => apply Logged.Alike.refl
    | cons next events ih =>
      by_cases hnews : Event.IsNews event next
      · rw [List.destutter'_cons_pos _ hnews, run_cons, run_cons session event]
        apply Logged.Alike.bind
        apply ih
      · rw [List.destutter'_cons_neg _ hnews]
        obtain ⟨hheard, rfl⟩ := not_not.mp hnews
        apply (session.run_again hheard events).trans
        apply ih

/-- Whatever the state of a session, an event of the compositor that comes again right after
itself leaves the session as the first one did, and asks nothing of any surface.  What
follows goes as if it had come once. -/
theorem redelivery_unnoticed (session : Session) {event : Event} (hheard : event.isHeard)
    (later : List Event) :
  let once := session.step event
  let again := once.value.1.step event
  again.value.1 = once.value.1
    ∧ (∀ name, requestsTo name again.log = [])
    ∧ (session.run (event :: event :: later)).value = (session.run (event :: later)).value
    ∧ ∀ name, requestsTo name (session.run (event :: event :: later)).log
      = requestsTo name (session.run (event :: later)).log
  := by
  intro once again
  have hrests := session.rests_again hheard
  have halike := session.run_again hheard later
  use hrests.value
  constructor
  · intro name
    rw [← hrests.requests name, Logged.log_map]
  · exact ⟨halike.value, halike.requests⟩

/-- A run after which two bars are hidden. -/
def hiddenBars : List Event :=
  [.addOutput ⟨"DP-1", ""⟩ ⟨0, 0, 1920, 1080⟩, .addOutput ⟨"DP-2", ""⟩ ⟨1920, 0, 1920, 1080⟩,
   .setVisible false]

/-- A configuration that drops a bar, and shows and moves the other. -/
def showingConfig : Sway.BarConfig where
  id := "bar-0"
  mode := "dock"
  hiddenState := "show"
  position := "bottom"
  outputs := ["DP-2"]

/-- A configuration that changes much changes nothing when it comes again. -/
theorem redelivery_unnoticed_showingConfig :
  let session := ((ofSettings Settings.initial).run hiddenBars).value
  let once := session.step (.barConfig showingConfig)
  let again := once.value.1.step (.barConfig showingConfig)
  (Event.barConfig showingConfig).isHeard
    ∧ requestsTo "DP-2" once.log ≠ []
    ∧ once.value.1.inst.bars.map (fun bar => (bar.output.name, bar.mode, bar.position))
      = [("DP-2", "dock", .bottom)]
    ∧ again.value.1 = once.value.1
    ∧ requestsTo "DP-2" again.log = []
  := by
  intro session once again
  have hheard : (Event.barConfig showingConfig).isHeard := rfl
  obtain ⟨hvalue, hrequests, -, -⟩ := session.redelivery_unnoticed hheard []
  use hheard
  constructor
  · decide
  · constructor
    · decide
    · exact ⟨hvalue, hrequests "DP-2"⟩

end Session

end StatusBar
