import StatusBar.Proofs.Instance.Maintained
import StatusBar.Proofs.Session.Run

/-!
# Watched sessions

A watched session goes through the same run as the session alone, and records what the
surface of each bar received since the bar was created.  `Watched.meets_run` carries what
every change of one bar maintains over to the bars of every run.
-/

namespace StatusBar

/-- A session, and for each output the requests that the surface of its bar received. -/
structure Watched where
  session : Session
  received : Recording

namespace Watched

open Session (Event)

/-- A new session, before any surface received anything. -/
def ofSettings (settings : Settings) (reset : ModifierReset := settings.modifierReset) :
    Watched where
  session := .ofSettings settings reset
  received := fun _ => []

/-- Let one event happen.  Where there was no bar, a new one comes with a new surface. -/
def step (watched : Watched) (event : Event) : Watched :=
  let outcome := watched.session.step event
  let kept : Recording := fun name =>
    if watched.session.inst.hasBar name then watched.received name else []
  { session := outcome.value.1
    received := kept.after outcome.log }

/-- Let events happen one after the other. -/
def run (watched : Watched) (events : List Event) : Watched :=
  events.foldl step watched

/-- What the surface of a bar shows. -/
def display (watched : Watched) (bar : Bar) : Display :=
  watched.received.display bar

/-- The instance that is watched. -/
def inst (watched : Watched) : Instance :=
  watched.session.inst

/-- What the surfaces received that are kept over a step. -/
def kept (watched : Watched) : Recording :=
  fun name => if watched.inst.hasBar name then watched.received name else []

/-- Watching changes nothing. -/
theorem session_run (watched : Watched) (events : List Event) :
  (watched.run events).session = (watched.session.run events).value
  := by
  induction events generalizing watched with
  | nil => rfl
  | cons event events ih =>
    rw [Session.value_run_cons]
    apply ih

/-- The instance of a watched run from the start is that of the run. -/
theorem inst_run (settings : Settings) (reset : ModifierReset) (events : List Event) :
  ((ofSettings settings reset).run events).inst
    = ((Session.ofSettings settings reset).run events).value.inst
  := congrArg Session.inst (session_run ..)

end Watched

/-! ### Steps of a session -/

/-- There is a bar on the output of each bar. -/
theorem Instance.hasBar_of_mem {inst : Instance} {bar : Bar} (h : bar ∈ inst.bars) :
  inst.hasBar bar.output.name
  := by
  apply List.any_eq_true.mpr
  use bar, h
  apply decide_eq_true rfl

namespace Instance.Meets

variable {settings : Settings} {expected : Expectation} {received : Recording}

theorem quietly {step : Step Instance} (session : Session)
    (h : step.Leads received fun inst received => inst.Meets settings expected received) :
  (session.quietly step).Leads received fun result received =>
    result.1.inst.Meets settings expected received
  := by
  apply Logged.Leads.bind h
  intro inst received h
  apply Logged.Leads.pure h

theorem answering {step : Step (Instance × Bool)} (session : Session)
    (h : step.Leads received fun result received => result.1.Meets settings expected received) :
  (session.answering step).Leads received fun result received =>
    result.1.inst.Meets settings expected received
  := by
  apply Logged.Leads.bind h
  intro result received h
  apply Logged.Leads.pure h

theorem handling {step : Step (Sway.Sync × Instance)}
    (h : step.Leads received fun result received => result.2.Meets settings expected received) :
  (Session.handling step).Leads received fun result received =>
    result.1.inst.Meets settings expected received
  := by
  apply Logged.Leads.bind h
  intro result received h
  apply Logged.Leads.pure h

theorem andRefresh {inst : Instance} (h : inst.Meets settings expected received)
    (hexpected : Bar.Maintained settings expected) (sync : Sway.Sync) :
  (sync.andRefresh inst).Leads received fun result received =>
    result.2.Meets settings expected received
  := by
  apply Logged.Leads.bind (h.refresh hexpected sync)
  intro inst received h
  apply Logged.Leads.pure h

/-- Every event that is not for a single bar keeps the bars as expected. -/
theorem step {session : Session} (h : session.inst.Meets settings expected received)
    (hexpected : Bar.Maintained settings expected)
    (hnew : ∀ name, session.inst.hasBar name = false → received name = [])
    {event : Session.Event} (hshared : event.isShared) :
  (session.step event).Leads received fun result received =>
    result.1.inst.Meets settings expected received
  := by
  cases event with
  | addOutput output monitor =>
    apply answering session (h.addOutput hexpected hnew output monitor)
  | removeOutput name =>
    apply quietly session (Logged.Leads.pure (h.filter _))
  | setMode mode => apply quietly session (h.setMode hexpected mode)
  | setPosition name => apply quietly session (h.setPosition hexpected name)
  | setVisible visible =>
    have hvisible : Meets { session.inst with visible := visible } settings expected received :=
      ⟨h.settings, h.bars⟩
    apply quietly session (hvisible.setMode hexpected _)
  | toggle =>
    have hvisible : Meets { session.inst with visible := !session.inst.visible } settings expected
        received := ⟨h.settings, h.bars⟩
    apply quietly session (hvisible.setMode hexpected _)
  | setOutputs patterns =>
    have houtputs : (session.inst.setOutputs patterns).Meets settings expected received :=
      ⟨h.settings, h.bars.filter _⟩
    apply quietly session (Logged.Leads.pure houtputs)
  | configure name size => apply quietly session (h.configure hexpected name size)
  | changeMonitor name monitor =>
    apply answering session (h.changeMonitor hexpected name monitor)
  | setBarMode name mode => cases hshared
  | setBarPosition name position => cases hshared
  | setStartedBarId id =>
    have hid : (session.inst.setStartedBarId id).Meets settings expected received :=
      ⟨h.settings, h.bars⟩
    apply quietly session (Logged.Leads.pure hid)
  | applyBarConfig config revealed =>
    apply answering session (h.applyBarConfig hexpected config revealed)
  | barConfig config =>
    apply handling
    apply Logged.Leads.bind (h.applyBarConfig hexpected config _)
    intro result received h
    apply Logged.Leads.pure h
  | barStateUpdate update =>
    apply handling
    rw [Sway.Sync.onBarStateUpdate]
    split
    · apply Logged.Leads.pure h
    · apply h.andRefresh hexpected
  | modeChange change => apply handling (h.andRefresh hexpected _)
  | urgency urgent => apply handling (h.andRefresh hexpected _)

end Instance.Meets

namespace Watched

open Session (Event)

variable {settings : Settings} {expected : Expectation}

/-- What the surfaces of the bars received is kept. -/
theorem recorded_kept {watched : Watched} {good : Bar → Display → Prop}
    (h : Recorded watched.inst.bars watched.received good) :
  Recorded watched.inst.bars watched.kept good
  := by
  apply h.congr
  intro bar hbar
  apply if_pos (Instance.hasBar_of_mem hbar)

theorem meets_step (hexpected : Bar.Maintained settings expected) {watched : Watched}
    (h : watched.inst.Meets settings expected watched.received) {event : Event}
    (hshared : event.isShared) :
  (watched.step event).inst.Meets settings expected (watched.step event).received
  := by
  apply Instance.Meets.step _ hexpected _ hshared
  · exact ⟨h.settings, recorded_kept h.bars⟩
  · intro name hname
    apply if_neg
    rw [hname]
    apply Bool.false_ne_true

/-- The bars of every run are as expected. -/
theorem meets_run (hexpected : Bar.Maintained settings expected) {watched : Watched}
    (h : watched.inst.Meets settings expected watched.received) (events : List Event)
    (hshared : ∀ event ∈ events, event.isShared) :
  (watched.run events).inst.Meets settings expected (watched.run events).received
  := by
  induction events generalizing watched with
  | nil => exact h
  | cons event events ih =>
    obtain ⟨hevent, hevents⟩ := List.forall_mem_cons.mp hshared
    apply ih (meets_step hexpected h hevent) hevents

/-- The bars of every run of a new session are as expected. -/
theorem meets_ofSettings (hexpected : Bar.Maintained settings expected) (reset : ModifierReset)
    (events : List Event) (hshared : ∀ event ∈ events, event.isShared) :
  ((ofSettings settings reset).run events).inst.Meets settings expected
    ((ofSettings settings reset).run events).received
  := by
  apply meets_run hexpected _ events hshared
  exact .ofSettings

end Watched

end StatusBar
