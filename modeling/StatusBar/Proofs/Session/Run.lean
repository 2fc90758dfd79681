import Mathlib.Data.List.Induction
import StatusBar.Session

/-!
# Runs of sessions

A run is taken apart event by event.  `Session.run_induction` goes through a run from its
start: what holds before any event, and is kept by each event that is allowed, holds after
every run of allowed events.
-/

namespace StatusBar.Session

/-- Whether an event is not a direct change of the mode or the position of a single bar. -/
def Event.isShared : Event → Bool
  | .setBarMode _ _ => false
  | .setBarPosition _ _ => false
  | _ => true

@[simp]
theorem value_run_cons (session : Session) (event : Event) (events : List Event) :
  (session.run (event :: events)).value = ((session.step event).value.1.run events).value
  := rfl

theorem value_run_append (session : Session) (events events' : List Event) :
  (session.run (events ++ events')).value = ((session.run events).value.run events').value
  := by
  rw [run, List.foldlM_append]
  rfl

/-- The last event of a run. -/
theorem value_run_concat (session : Session) (events : List Event) (event : Event) :
  (session.run (events ++ [event])).value = ((session.run events).value.step event).value.1
  := value_run_append ..

/-- No event of a run is of a kind that depends on the session before it. -/
def Avoids (kind : Session → Event → Prop) : (session : Session) → List Event → Prop
  | _, [] => True
  | session, event :: events =>
    ¬ kind session event ∧ Avoids kind (session.step event).value.1 events

instance decidableAvoids (kind : Session → Event → Prop)
    [(session : Session) → (event : Event) → Decidable (kind session event)] :
    (session : Session) → (events : List Event) → Decidable (Avoids kind session events)
  | _, [] => .isTrue trivial
  | session, event :: events =>
    have := decidableAvoids kind (session.step event).value.1 events
    inferInstanceAs (Decidable (_ ∧ _))

theorem avoids_concat (kind : Session → Event → Prop) (session : Session) (events : List Event)
    (event : Event) :
  Avoids kind session (events ++ [event])
    ↔ Avoids kind session events ∧ ¬ kind (session.run events).value event
  := by
  induction events generalizing session with
  | nil => exact ⟨fun h => ⟨trivial, h.1⟩, fun h => ⟨h.2, trivial⟩⟩
  | cons first events ih =>
    change _ ∧ Avoids kind _ (events ++ [event]) ↔ (_ ∧ Avoids kind _ events) ∧ _
    rw [ih, and_assoc]
    exact Iff.rfl

/-- What each allowed event keeps, after a run of such events, holds after every such run. -/
theorem run_induction (start : Session) (holds : List Event → Session → Prop)
    {allowed : Event → Prop} (hstart : holds [] start)
    (hstep : ∀ events event, (∀ earlier ∈ events, allowed earlier) → allowed event →
      holds events (start.run events).value →
      holds (events ++ [event]) ((start.run events).value.step event).value.1)
    {events : List Event} (hallowed : ∀ event ∈ events, allowed event) :
  holds events (start.run events).value
  := by
  induction events using List.reverseRecOn with
  | nil => exact hstart
  | append_singleton events event ih =>
    obtain ⟨hevents, hevent⟩ := List.forall_mem_append.mp hallowed
    rw [value_run_concat]
    apply hstep events event hevents
    · apply List.forall_mem_singleton.mp hevent
    · apply ih hevents

end StatusBar.Session
