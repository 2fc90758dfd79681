import Mathlib.Data.List.Basic
import StatusBar.Proofs.Sway.Hearing

/-!
# What reveals a hidden bar

Whether something asks for a hidden bar is a matter of the events alone, as long as the
bar keeps its id.  The modifier and the binding mode ask as the last event about them says.
Urgency asks from the event that reports it on, until another such event or until the
modifier clears it: under `press` when it is pressed, under `release` when it is released
and nothing but presses happened since it was pressed.
-/

namespace StatusBar

namespace Session.Event

/-- Whether an event gives the instance another id to follow. -/
def setsBarId : Event → Bool
  | .setStartedBarId _ => true
  | _ => false

/-- Whether the modifier is pressed from an event on, if it says so about the bar of that
id. -/
def modifier? (barId : String) : Event → Option Bool
  | .barStateUpdate update => if update.id = barId then some update.visibleByModifier else none
  | _ => none

/-- The binding mode that is entered. -/
def bindingMode? : Event → Option String
  | .modeChange change => some change.change
  | _ => none

/-- Whether some workspace is urgent from an event on, if it says so. -/
def urgency? : Event → Option Bool
  | .urgency urgent => some urgent
  | _ => none

/-- Whether an event is a press of the modifier, of those that are presses of it, changes
of the binding mode, or about urgency. -/
def action? (barId : String) (event : Event) : Option Bool :=
  if event.modifier? barId = some true then some true
  else if event.bindingMode?.isSome || event.urgency?.isSome then some false
  else none

/-- Whether an event says anything about what asks for the bar of that id. -/
def isAsking (barId : String) (event : Event) : Bool :=
  (event.modifier? barId).isSome || event.bindingMode?.isSome || event.urgency?.isSome

end Session.Event

namespace Sway

open Session (Event)

variable {α : Type} {reset : ModifierReset} {barId : String} {events : List Event} {event : Event}

/-- What the last event that says something about a matter says. -/
def last? (says? : Event → Option α) (events : List Event) : Option α :=
  (events.filterMap says?).getLast?

theorem last?_concat (says? : Event → Option α) (events : List Event) (event : Event) :
  last? says? (events ++ [event]) = (says? event).or (last? says? events)
  := by
  rw [last?, List.filterMap_append, List.getLast?_append]
  cases hsays : says? event with
  | none => rw [List.filterMap_cons_none hsays, List.filterMap_nil, List.getLast?_nil]; rfl
  | some value => rw [List.filterMap_cons_some hsays, List.filterMap_nil]; rfl

/-- Whether an event, after the events before, clears an urgency. -/
def Clears (reset : ModifierReset) (barId : String) (before : List Event) (event : Event) : Prop :=
  match reset with
  | .press => event.modifier? barId = some true
  | .release => event.modifier? barId = some false ∧ last? (·.action? barId) before = some true

/-- Some workspace was urgent when last heard of, and nothing cleared this since. -/
def Urgent (reset : ModifierReset) (barId : String) (events : List Event) : Prop :=
  ∃ earlier later, events = earlier ++ .urgency true :: later
    ∧ (∀ event ∈ later, event.urgency? = none)
    ∧ ∀ held event after, later = held ++ event :: after →
      ¬ Clears reset barId (earlier ++ .urgency true :: held) event

/-- An urgency lasts if an event reports it, or says nothing about it and does not clear it. -/
theorem urgent_concat :
  Urgent reset barId (events ++ [event])
    ↔ event.urgency? = some true
      ∨ event.urgency? = none ∧ Urgent reset barId events ∧ ¬ Clears reset barId events event
  := by
  constructor
  · rintro ⟨earlier, later, hevents, hquiet, hlasts⟩
    rcases List.eq_nil_or_concat' later with rfl | ⟨held, last, rfl⟩
    · obtain ⟨-, hlast⟩ := List.append_inj' hevents rfl
      cases hlast
      exact .inl rfl
    · rw [← List.cons_append, ← List.append_assoc] at hevents
      obtain ⟨rfl, hlast⟩ := List.append_inj' hevents rfl
      cases hlast
      obtain ⟨hheld, hevent⟩ := List.forall_mem_append.mp hquiet
      right
      use hevent event (List.mem_singleton_self event)
      constructor
      · use earlier, held, rfl, hheld
        intro held' event' after hsplit
        apply hlasts held' event' (after ++ [event])
        rw [hsplit, List.append_assoc, List.cons_append]
      · apply hlasts held event [] rfl
  · rintro (hurgent | ⟨hevent, ⟨earlier, later, rfl, hquiet, hlasts⟩, hclears⟩)
    · have hlast : event = .urgency true := by
        cases event with
        | urgency urgent =>
          cases hurgent
          rfl
        | _ => cases hurgent
      use events, [], by rw [hlast], by simp
      intro held event' after hsplit
      cases held with
      | nil => cases hsplit
      | cons first held => cases hsplit
    · use earlier, later ++ [event], by simp
      constructor
      · exact List.forall_mem_append.mpr ⟨hquiet, List.forall_mem_singleton.mpr hevent⟩
      · intro held event' after hsplit
        rcases List.eq_nil_or_concat' after with rfl | ⟨after, last, rfl⟩
        · obtain ⟨rfl, hlast⟩ := List.append_inj' hsplit rfl
          cases hlast
          exact hclears
        · rw [← List.cons_append, ← List.append_assoc] at hsplit
          obtain ⟨rfl, -⟩ := List.append_inj' hsplit rfl
          apply hlasts held event' after rfl

/-! ### What is known after some events -/

/-- What is known from the compositor tells what the events say. -/
structure Sync.Remembers (sync : Sync) (reset : ModifierReset) (barId : String)
    (events : List Event) : Prop where
  policy : sync.modifierReset = reset
  modifier : sync.visibleByModifier ↔ last? (·.modifier? barId) events = some true
  bindingMode : sync.visibleByMode
    ↔ ∃ name, last? (·.bindingMode?) events = some name ∧ name ≠ "default"
  urgency : sync.visibleByUrgency ↔ Urgent reset barId events
  alone : sync.modifierAlone ↔ last? (·.action? barId) events = some true

namespace Sync.Remembers

variable {sync : Sync}

theorem nil (reset : ModifierReset) (barId : String) :
  Remembers { modifierReset := reset } reset barId []
  := by
  constructor
  case policy => rfl
  case modifier => simp [last?]
  case bindingMode => simp [last?]
  case urgency => simp [Urgent]
  case alone => simp [last?]

/-- What says nothing about the bar is not noticed. -/
theorem quiet {sync' : Sync} (h : sync.Remembers reset barId events)
    (hsync : sync'.reveals = sync.reveals) (hevent : ¬ event.isAsking barId) :
  sync'.Remembers reset barId (events ++ [event])
  := by
  simp only [Event.isAsking, Bool.or_eq_true, not_or, Option.not_isSome_iff_eq_none] at hevent
  obtain ⟨⟨hmodifier, hmode⟩, hurgency⟩ := hevent
  have haction : event.action? barId = none := by
    simp [Event.action?, hmodifier, hmode, hurgency]
  have hclears : ¬ Clears reset barId events event := by
    cases reset with
    | press => simp [Clears, hmodifier]
    | release => simp [Clears, hmodifier]
  constructor
  case policy =>
    change sync'.reveals.modifierReset = _
    rw [hsync]
    exact h.policy
  case modifier =>
    change sync'.reveals.visibleByModifier ↔ _
    rw [hsync, last?_concat, hmodifier, Option.none_or]
    exact h.modifier
  case bindingMode =>
    change sync'.reveals.visibleByMode ↔ _
    rw [hsync, last?_concat, hmode, Option.none_or]
    exact h.bindingMode
  case urgency =>
    change sync'.reveals.visibleByUrgency ↔ _
    rw [hsync, urgent_concat, hurgency]
    simp only [reduceCtorEq, false_or, true_and, hclears, not_false_eq_true, and_true]
    exact h.urgency
  case alone =>
    change sync'.reveals.modifierAlone ↔ _
    rw [hsync, last?_concat, haction, Option.none_or]
    exact h.alone

/-- The modifier of the bar is pressed or released. -/
theorem modifierTo (h : sync.Remembers reset barId events) {pressed : Bool}
    (hevent : event.modifier? barId = some pressed) :
  (sync.modifierTo pressed).Remembers reset barId (events ++ [event])
  := by
  have hmode : event.bindingMode? = none := by
    cases event with
    | modeChange change => cases hevent
    | _ => rfl
  have hurgency : event.urgency? = none := by
    cases event with
    | urgency urgent => cases hevent
    | _ => rfl
  constructor
  case policy => exact h.policy
  case modifier =>
    rw [last?_concat, hevent]
    simp [Sync.modifierTo]
  case bindingMode =>
    rw [last?_concat, hmode, Option.none_or]
    exact h.bindingMode
  case urgency =>
    rw [urgent_concat, hurgency, ← h.urgency]
    change sync.urgencyAfter pressed ↔ _
    rw [urgencyAfter.eq_def, h.policy]
    cases reset with
    | press => cases pressed <;> simp [Clears, hevent]
    | release => cases pressed <;> simp [Clears, hevent, ← h.alone]
  case alone =>
    change (pressed || sync.modifierAlone) ↔ _
    rw [last?_concat, Event.action?, hevent, hmode, hurgency]
    cases pressed <;> simp [h.alone]

/-- A binding mode is entered. -/
theorem bindingModeTo (h : sync.Remembers reset barId events) (change : ModeChange) :
  (sync.bindingModeTo change.change).Remembers reset barId (events ++ [.modeChange change])
  := by
  constructor
  case policy => exact h.policy
  case modifier =>
    rw [last?_concat]
    exact h.modifier
  case bindingMode =>
    rw [last?_concat]
    simp [Sync.bindingModeTo, Event.bindingMode?]
  case urgency =>
    rw [urgent_concat]
    have hclears : ¬ Clears reset barId events (.modeChange change) := by
      cases reset <;> simp [Clears, Event.modifier?]
    simp only [Event.urgency?, reduceCtorEq, false_or, true_and, hclears, not_false_eq_true,
      and_true]
    exact h.urgency
  case alone =>
    rw [last?_concat]
    simp [Sync.bindingModeTo, Event.action?, Event.modifier?, Event.bindingMode?]

/-- A workspace becomes urgent, or the last urgent one is visited. -/
theorem urgencyTo (h : sync.Remembers reset barId events) (urgent : Bool) :
  (sync.urgencyTo urgent).Remembers reset barId (events ++ [.urgency urgent])
  := by
  constructor
  case policy => exact h.policy
  case modifier =>
    rw [last?_concat]
    exact h.modifier
  case bindingMode =>
    rw [last?_concat]
    exact h.bindingMode
  case urgency =>
    rw [urgent_concat]
    simp [Sync.urgencyTo, Event.urgency?]
  case alone =>
    rw [last?_concat]
    simp [Sync.urgencyTo, Event.action?, Event.modifier?, Event.urgency?]

/-- Every event is noticed. -/
theorem hear (h : sync.Remembers reset barId events) (event : Event) :
  (sync.hear barId event).Remembers reset barId (events ++ [event])
  := by
  cases event with
  | barConfig config => exact h.quiet (reveals_hear_config _ _ rfl) Bool.false_ne_true
  | barStateUpdate update =>
    rw [Sync.hear]
    by_cases hid : update.id = barId
    · rw [if_pos hid]
      apply h.modifierTo
      rw [Event.modifier?, if_pos hid]
    · rw [if_neg hid]
      apply h.quiet rfl
      simp [Event.isAsking, Event.modifier?, Event.bindingMode?, Event.urgency?, hid]
  | modeChange change => exact h.bindingModeTo change
  | urgency urgent => exact h.urgencyTo urgent
  | _ => exact h.quiet rfl Bool.false_ne_true

end Sync.Remembers

/-- An event that does not ask for the bar leaves all that asks for it. -/
theorem Sync.reveals_hear_of_not_asking (sync : Sync) (h : ¬ event.isAsking barId) :
  (sync.hear barId event).reveals = sync.reveals
  := by
  cases event with
  | barConfig config => exact reveals_hear_config _ _ rfl
  | barStateUpdate update =>
    rw [Sync.hear, if_neg]
    intro hid
    apply h
    simp [Event.isAsking, Event.modifier?, hid]
  | modeChange change => cases h rfl
  | urgency urgent => cases h rfl
  | _ => rfl

end Sway

namespace Session

open Sway (last? Urgent)

/-- No event but one about the id changes the id. -/
theorem barId_step (session : Session) {event : Event} (h : ¬ event.setsBarId) :
  (session.step event).value.1.inst.barId = session.inst.barId
  := by
  cases event with
  | setStartedBarId id => cases h rfl
  | setMode mode => apply congrArg Instance.barId (session.inst.shared_setMode mode)
  | setVisible visible =>
    apply congrArg Instance.barId (Instance.shared_setMode { session.inst with visible } _)
  | toggle =>
    apply congrArg Instance.barId
      (Instance.shared_setMode { session.inst with visible := !session.inst.visible } _)
  | setOutputs patterns => rfl
  | applyBarConfig config revealed =>
    by_cases hid : config.id = session.inst.barId
    · obtain ⟨position, hshared⟩ := session.inst.shared_applyBarConfig hid revealed
      apply congrArg Instance.barId hshared
    · change (session.inst.applyBarConfig config revealed).value.1.barId = _
      rw [Instance.applyBarConfig, if_pos hid]
      rfl
  | _ =>
    apply (session.fixed_step _).2
    exact Bool.false_ne_true

theorem barId_run (start : Session) {events : List Event}
    (hid : ∀ event ∈ events, ¬ event.setsBarId) :
  (start.run events).value.inst.barId = start.inst.barId
  := by
  apply run_induction start (fun _ session => session.inst.barId = start.inst.barId) rfl _ hid
  intro events event _ hevent ih
  exact ((start.run events).value.barId_step hevent).trans ih

theorem remembers_run {start : Session} {reset : ModifierReset}
    (hstart : start.sync = { modifierReset := reset }) {events : List Event}
    (hid : ∀ event ∈ events, ¬ event.setsBarId) :
  (start.run events).value.sync.Remembers reset start.inst.barId events
  := by
  apply run_induction start
    (fun events session => session.sync.Remembers reset start.inst.barId events) _ _ hid
  · rw [hstart]
    apply Sway.Sync.Remembers.nil
  · intro events event hevents _ ih
    rw [sync_step, barId_run start hevents]
    apply ih.hear

/-- What asks for the bar is what would if no other event had come. -/
theorem reveals_run_asking (start : Session) {events : List Event}
    (hid : ∀ event ∈ events, ¬ event.setsBarId) :
  (start.run events).value.sync.reveals
    = (start.run (events.filter (·.isAsking start.inst.barId))).value.sync.reveals
  := by
  apply run_induction start (fun events session => session.sync.reveals
    = (start.run (events.filter (·.isAsking start.inst.barId))).value.sync.reveals) rfl _ hid
  intro events event hevents _ ih
  have hfiltered : ∀ event ∈ events.filter (·.isAsking start.inst.barId), ¬ event.setsBarId := by
    intro event hmem
    apply hevents event (List.mem_filter.mp hmem).1
  rw [List.filter_append, sync_step, barId_run start hevents]
  by_cases hasking : event.isAsking start.inst.barId
  · have hconfig : ¬ event.isConfig := by
      cases event with
      | barConfig config => cases hasking
      | _ => exact Bool.false_ne_true
    have hkept : [event].filter (·.isAsking start.inst.barId) = [event] := by simp [hasking]
    rw [Sway.Sync.reveals_hear _ _ hconfig, ih, hkept, value_run_concat, sync_step,
      barId_run start hfiltered, Sway.Sync.reveals_hear _ _ hconfig]
  · rw [Sway.Sync.reveals_hear_of_not_asking _ hasking, ih]
    simp [hasking]

/-- While the bar keeps its id, it is revealed if the modifier was pressed when last heard
of, or the last binding mode is not the default one, or some workspace was urgent when last
heard of and nothing cleared this.  No other event counts. -/
theorem revealed_run_iff {start : Session} {reset : ModifierReset}
    (hstart : start.sync = { modifierReset := reset }) (events : List Event)
    (hid : ∀ event ∈ events, ¬ event.setsBarId) :
  let barId := start.inst.barId
  let sync := (start.run events).value.sync
  (sync.revealed
      ↔ last? (·.modifier? barId) events = some true
        ∨ (∃ name, last? (·.bindingMode?) events = some name ∧ name ≠ "default")
        ∨ Urgent reset barId events)
    ∧ sync.revealed
      = (start.run (events.filter (·.isAsking barId))).value.sync.revealed
  := by
  intro barId sync
  have hremembers : sync.Remembers reset barId events := remembers_run hstart hid
  constructor
  · rw [Sway.Sync.revealed, Bool.or_eq_true, Bool.or_eq_true, hremembers.modifier,
      hremembers.bindingMode, hremembers.urgency, or_assoc]
  · apply congrArg Sway.Sync.revealed (reveals_run_asking start hid)

/-- A bar state update for the bar of a session without an id of its own. -/
def modifierAt (pressed : Bool) : Event :=
  .barStateUpdate { id := "bar-0", visibleByModifier := pressed }

/-- A run in which the modifier is released twice: once after the binding mode changed
while it was held, and once after nothing but another bar's update. -/
def releasedTwice : List Event :=
  [.urgency true, modifierAt true, .modeChange ⟨"default"⟩, modifierAt false, modifierAt true,
   .barStateUpdate { id := "bar-1", visibleByModifier := true }, modifierAt false]

/-- The second release clears the urgency that the first one left. -/
theorem revealed_run_iff_releasedTwice :
  let start := ofSettings Settings.initial .release
  start.sync = { modifierReset := .release }
    ∧ (∀ event ∈ releasedTwice, ¬ event.setsBarId)
    ∧ Urgent .release "bar-0" (releasedTwice.take 4)
    ∧ ¬ Urgent .release "bar-0" releasedTwice
  := by
  intro start
  have hstart : start.sync = { modifierReset := .release } := rfl
  have hid : ∀ event ∈ releasedTwice, ¬ event.setsBarId := by decide
  have hid' : ∀ event ∈ releasedTwice.take 4, ¬ event.setsBarId := by decide
  use hstart, hid
  constructor
  · obtain ⟨hrevealed, -⟩ := revealed_run_iff hstart (releasedTwice.take 4) hid'
    rcases hrevealed.mp (by decide) with hpressed | ⟨name, hname, hother⟩ | hurgent
    · cases hpressed
    · cases hname
      cases hother rfl
    · exact hurgent
  · intro hurgent
    obtain ⟨hrevealed, -⟩ := revealed_run_iff hstart releasedTwice hid
    have hsync := hrevealed.mpr (.inr (.inr hurgent))
    revert hsync
    decide

end Session

end StatusBar
