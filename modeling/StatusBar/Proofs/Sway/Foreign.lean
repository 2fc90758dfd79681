import Mathlib.Data.List.Infix
import StatusBar.Proofs.Session.Watched

/-!
# Events for other bars

Several bars hear the same compositor, each of them what is said to all.  An event for
another bar leaves a session as it is, without a request or a warning.  So a run goes the
same way when any such events are left out of it.
-/

namespace StatusBar

namespace Session

namespace Event

/-- Whether an event is for another bar than that of the id. -/
def isForeign (barId : String) : Event → Bool
  | .applyBarConfig config _ => config.id ≠ barId
  | .barConfig config => config.id ≠ barId
  | .barStateUpdate update => update.id ≠ barId
  | _ => false

/-- The second list is the first without some events for other bars than that of the id. -/
inductive Omits (barId : String) : List Event → List Event → Prop where
  | nil : Omits barId [] []
  | keep (event : Event) {events events' : List Event} :
    Omits barId events events' → Omits barId (event :: events) (event :: events')
  | skip {event : Event} {events events' : List Event} :
    event.isForeign barId → Omits barId events events' → Omits barId (event :: events) events'

end Event

open Event (Omits)

variable {barId : String} {event : Event} {events events' : List Event}

/-- An event for another bar is not noticed. -/
theorem step_foreign (session : Session) (h : event.isForeign session.inst.barId) :
  Prod.fst <$> session.step event = pure session
  := by
  cases event with
  | applyBarConfig config revealed =>
    rw [step, Instance.applyBarConfig, if_pos (of_decide_eq_true h)]
    rfl
  | barConfig config =>
    rw [step, Sway.Sync.onBarConfig, Instance.applyBarConfig, if_pos (of_decide_eq_true h)]
    rfl
  | barStateUpdate update =>
    rw [step, Sway.Sync.onBarStateUpdate, if_pos (of_decide_eq_true h)]
    rfl
  | _ => cases h

theorem run_cons (session : Session) (event : Event) (events : List Event) :
  session.run (event :: events)
    = Prod.fst <$> session.step event >>= fun session => session.run events
  := List.foldlM_cons ..

theorem value_step_foreign (session : Session) (h : event.isForeign session.inst.barId) :
  (session.step event).value.1 = session
  := congrArg Logged.value (session.step_foreign h)

theorem log_step_foreign (session : Session) (h : event.isForeign session.inst.barId) :
  (session.step event).log = []
  := by
  rw [← Logged.log_map Prod.fst, session.step_foreign h, Logged.log_pure]

/-- An id that a run keeps is the one that it starts with, and is kept after the first
event. -/
theorem barId_tail {start : Session}
    (hid : ∀ earlier, earlier <+: event :: events →
      (start.run earlier).value.inst.barId = barId) :
  start.inst.barId = barId
    ∧ ∀ earlier, earlier <+: events →
      ((start.step event).value.1.run earlier).value.inst.barId = barId
  := by
  constructor
  · apply hid [] List.nil_prefix
  · intro earlier hearlier
    apply hid (event :: earlier)
    apply List.cons_prefix_cons.mpr ⟨rfl, hearlier⟩

/-- A run that keeps the id goes the same way without events for other bars. -/
theorem run_of_omits {start : Session} (homits : Omits barId events events')
    (hid : ∀ earlier, earlier <+: events → (start.run earlier).value.inst.barId = barId) :
  start.run events = start.run events'
  := by
  induction homits generalizing start with
  | nil => rfl
  | keep event homits ih =>
    obtain ⟨-, hrest⟩ := barId_tail hid
    rw [run_cons, run_cons]
    apply Logged.bind_congr
    apply ih hrest
  | skip hforeign homits ih =>
    obtain ⟨hstart, hrest⟩ := barId_tail hid
    rw [← hstart] at hforeign
    rw [start.value_step_foreign hforeign] at hrest
    rw [run_cons, start.step_foreign hforeign, pure_bind]
    apply ih hrest

end Session

/-! ### What the surfaces received -/

namespace Watched

open Session (Event)
open Session.Event (Omits)

variable {barId : String} {event : Event} {events events' : List Event}

/-- Two watched sessions are in the same state, and the surfaces of their bars received the
same. -/
structure Agrees (watched watched' : Watched) : Prop where
  session : watched.session = watched'.session
  received : ∀ name, watched.inst.hasBar name → watched.received name = watched'.received name

namespace Agrees

variable {watched watched' watched'' : Watched}

theorem refl (watched : Watched) :
  watched.Agrees watched
  := ⟨rfl, fun _ _ => rfl⟩

theorem trans (h : watched.Agrees watched') (h' : watched'.Agrees watched'') :
  watched.Agrees watched''
  := by
  constructor
  · exact h.session.trans h'.session
  · intro name hname
    rw [h.received name hname]
    apply h'.received name
    rw [inst, ← h.session]
    exact hname

/-- Nothing else is seen of a watched session. -/
theorem step_eq (h : watched.Agrees watched') (event : Event) :
  watched.step event = watched'.step event
  := by
  have hkept : watched.kept = watched'.kept := by
    funext name
    rw [kept, kept, inst, inst, ← h.session]
    split
    case isTrue hname => apply h.received name hname
    case isFalse => rfl
  change Watched.mk _ (watched.kept.after _) = Watched.mk _ (watched'.kept.after _)
  rw [hkept, h.session]

end Agrees

/-- An event for another bar asks nothing of any surface. -/
theorem agrees_step_foreign (watched : Watched) (h : event.isForeign watched.inst.barId) :
  (watched.step event).Agrees watched
  := by
  have hsession := watched.session.value_step_foreign h
  constructor
  · exact hsession
  · intro name hname
    have hbar : watched.session.inst.hasBar name := by
      rw [← hsession]
      exact hname
    rw [step, watched.session.log_step_foreign h, Recording.after_nil]
    apply if_pos hbar

/-- The surfaces receive the same over a run without events for other bars. -/
theorem agrees_run {watched watched' : Watched} (h : watched.Agrees watched')
    (homits : Omits barId events events')
    (hid : ∀ earlier, earlier <+: events →
      (watched.session.run earlier).value.inst.barId = barId) :
  (watched.run events).Agrees (watched'.run events')
  := by
  induction homits generalizing watched watched' with
  | nil => exact h
  | @keep event events events' homits ih =>
    obtain ⟨-, hrest⟩ := Session.barId_tail hid
    have hstep : (watched.step event).Agrees (watched'.step event) := by
      rw [h.step_eq event]
      apply Agrees.refl
    apply ih hstep hrest
  | @skip event events events' hforeign homits ih =>
    obtain ⟨hstart, hrest⟩ := Session.barId_tail hid
    rw [← hstart] at hforeign
    apply ih _ hrest
    apply (watched.agrees_step_foreign hforeign).trans h

/-- A run that keeps the id of its bar ends in the same state, after the same requests and
warnings in the same order, when any events for other bars are left out of it.  The surface
of each bar received the same. -/
theorem run_without_foreign (watched : Watched) (homits : Omits barId events events')
    (hid : ∀ earlier, earlier <+: events →
      (watched.session.run earlier).value.inst.barId = barId) :
  watched.session.run events = watched.session.run events'
    ∧ ∀ bar ∈ (watched.run events).inst.bars,
      (watched.run events).received bar.output.name
        = (watched.run events').received bar.output.name
  := by
  use Session.run_of_omits homits hid
  intro bar hbar
  apply (agrees_run (.refl watched) homits hid).received
  apply Instance.hasBar_of_mem hbar

/-- A run of the first of two bars that hear each other's configurations and modifiers. -/
def besideAnother : List Event :=
  [.addOutput ⟨"DP-1", ""⟩ ⟨0, 0, 1920, 1080⟩,
   .barConfig { id := "bar-0", mode := "hide", hiddenState := "hide", position := "bottom" },
   .barConfig { id := "bar-1", mode := "dock", outputs := ["DP-2"] }, .setStartedBarId "bar-0",
   .barStateUpdate { id := "bar-1", visibleByModifier := true }, .modeChange ⟨"resize"⟩]

/-- The run of the first bar alone. -/
def alone : List Event :=
  [.addOutput ⟨"DP-1", ""⟩ ⟨0, 0, 1920, 1080⟩,
   .barConfig { id := "bar-0", mode := "hide", hiddenState := "hide", position := "bottom" },
   .setStartedBarId "bar-0", .modeChange ⟨"resize"⟩]

/-- The other bar does not reveal the first one, or drop it from its output. -/
theorem run_without_foreign_besideAnother :
  let watched := ofSettings Settings.initial
  Omits "bar-0" besideAnother alone
    ∧ (∀ earlier, earlier <+: besideAnother →
      (watched.session.run earlier).value.inst.barId = "bar-0")
    ∧ watched.session.run besideAnother = watched.session.run alone
    ∧ (watched.run besideAnother).received "DP-1" = (watched.run alone).received "DP-1"
  := by
  intro watched
  have homits : Omits "bar-0" besideAnother alone :=
    .keep _ (.keep _ (.skip rfl (.keep _ (.skip rfl (.keep _ .nil)))))
  have hid : ∀ earlier ∈ besideAnother.inits,
      (watched.session.run earlier).value.inst.barId = "bar-0" := by
    decide
  have hid : ∀ earlier, earlier <+: besideAnother →
      (watched.session.run earlier).value.inst.barId = "bar-0" := by
    intro earlier hearlier
    apply hid earlier ((List.mem_inits _ _).mpr hearlier)
  obtain ⟨hrun, hreceived⟩ := watched.run_without_foreign homits hid
  use homits, hid, hrun
  have hbars : (watched.run besideAnother).inst.bars.map (·.output.name) = ["DP-1"] := by decide
  have hbar : "DP-1" ∈ (watched.run besideAnother).inst.bars.map (·.output.name) := by
    rw [hbars]
    apply List.mem_singleton_self
  obtain ⟨bar, hbar, hname⟩ := List.mem_map.mp hbar
  rw [← hname]
  apply hreceived bar hbar

end Watched

end StatusBar
