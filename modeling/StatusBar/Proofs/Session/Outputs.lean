import StatusBar.Proofs.Instance.Settled
import StatusBar.Proofs.Output.Patterns
import StatusBar.Proofs.Session.Watched
import StatusBar.Proofs.Sway.Foreign

/-!
# The bars of a run

Which bars there are after a run, told from its events: those that an accepted addition
created, on outputs that were neither removed since nor turned down by patterns that came
since.  `barOutputs_step` says what a single event does to the bars, and `barOutputs_run`
follows it over a run.
-/

namespace StatusBar

namespace Instance

variable (inst : Instance)

theorem barOutputs_onBar (name : String) {change : Bar → Step Bar} (hchange : Bar.Confined change) :
  (inst.onBar name change).value.1.barOutputs = inst.barOutputs
  := by
  change (onBar.go name change inst.bars).value.1.map (·.output) = inst.bars.map (·.output)
  induction inst.bars with
  | nil => rfl
  | cons bar bars ih =>
    rw [onBar.go]
    split
    · exact congrArg (· :: _) (hchange.output bar)
    · exact congrArg (bar.output :: ·) ih

theorem barOutputs_configure (name : String) (size : Size) :
  (inst.configure name size).value.barOutputs = inst.barOutputs
  := by
  rw [configure]
  split
  · apply barOutputs_onBar _ _ (Bar.confined_configure ..)
  · rfl

theorem barOutputs_refresh (sync : Sway.Sync) :
  (sync.refresh inst).value.barOutputs = inst.barOutputs
  := by
  rw [Sway.Sync.refresh]
  split
  · rfl
  · apply barOutputs_setMode

theorem barOutputs_setOutputs (patterns : List String) :
  (inst.setOutputs patterns).barOutputs
    = inst.barOutputs.filter fun output => output.ChosenBy patterns
  := by
  rw [barOutputs, barOutputs, List.filter_map]
  apply congrArg (List.map _)
  apply List.filter_congr
  intro bar _
  apply Bool.eq_iff_iff.mpr
  rw [Output.matchesPatterns_iff, Function.comp_apply, decide_eq_true_iff]

/-- A bar configuration for the bar drops the bars that its patterns are against. -/
theorem barOutputs_applyBarConfig {config : Sway.BarConfig} (h : config.id = inst.barId)
    (revealed : Bool) :
  (inst.applyBarConfig config revealed).value.1.barOutputs
    = inst.barOutputs.filter fun output => output.ChosenBy config.outputs
  := by
  rw [← barOutputs_setOutputs, applyBarConfig, if_neg (not_not_intro h)]
  apply (barOutputs_setMode _ _).trans
  apply barOutputs_setPosition

theorem outputs_setMode (mode : String) :
  (inst.setMode mode).value.outputs = inst.outputs
  := by
  apply congrArg Instance.outputs (inst.shared_setMode mode)

/-- The patterns of a bar configuration for the bar are in force after it. -/
theorem outputs_applyBarConfig (config : Sway.BarConfig) (revealed : Bool) :
  (inst.applyBarConfig config revealed).value.1.outputs
    = (if config.id = inst.barId then some config.outputs else none).getD inst.outputs
  := by
  by_cases h : config.id = inst.barId
  · obtain ⟨position, hshared⟩ := inst.shared_applyBarConfig h revealed
    rw [if_pos h]
    exact congrArg Instance.outputs hshared
  · rw [if_neg h, applyBarConfig, if_pos h]
    rfl

theorem outputs_refresh (sync : Sway.Sync) :
  (sync.refresh inst).value.outputs = inst.outputs
  := by
  rw [Sway.Sync.refresh]
  split
  · rfl
  · apply outputs_setMode

theorem hasBar_iff (name : String) :
  inst.hasBar name ↔ ∃ output ∈ inst.barOutputs, output.name = name
  := by
  simp [hasBar, barOutputs]

/-- An output is added if the patterns choose it and no bar is on an output of its name.
Otherwise nothing happens. -/
theorem addOutput_cases (output : Output) (monitor : Rect) :
  (output.ChosenBy inst.outputs ∧ inst.hasBar output.name = false
      ∧ (inst.addOutput output monitor).value.2 = true
      ∧ (inst.addOutput output monitor).value.1.barOutputs = inst.barOutputs ++ [output])
    ∨ (¬ (output.ChosenBy inst.outputs ∧ inst.hasBar output.name = false)
      ∧ inst.addOutput output monitor = pure (inst, false))
  := by
  have hguard : (inst.isOutputEnabled output && !inst.hasBar output.name) = true
      ↔ output.ChosenBy inst.outputs ∧ inst.hasBar output.name = false := by
    rw [Bool.and_eq_true, Bool.not_eq_true', isOutputEnabled, Output.matchesPatterns_iff]
  rw [addOutput]
  split
  case isTrue hadd =>
    obtain ⟨hchosen, hnew⟩ := hguard.mp hadd
    left
    use hchosen, hnew, rfl
    apply List.map_append
  case isFalse hadd =>
    right
    use fun h => hadd (hguard.mpr h)

end Instance

namespace Session

/-! ### What an event does to the bars -/

/-- The output that an event creates a bar on, if it is an addition that is accepted. -/
def created? (session : Session) : Event → Option Output
  | .addOutput output monitor =>
    if (session.inst.addOutput output monitor).value.2 then some output else none
  | _ => none

/-- The patterns that an event brings: those that are set, or those of a configuration for
the bar of the session. -/
def patterns? (session : Session) : Event → Option (List String)
  | .setOutputs patterns => some patterns
  | .applyBarConfig config _ => if config.id = session.inst.barId then some config.outputs else none
  | .barConfig config => if config.id = session.inst.barId then some config.outputs else none
  | _ => none

/-- An event is against the bar on an output: it removes the output by its name, or brings
patterns that do not choose it. -/
def Drops (session : Session) (event : Event) (output : Output) : Prop :=
  event = .removeOutput output.name
    ∨ ∃ patterns ∈ session.patterns? event, ¬ output.ChosenBy patterns

instance (session : Session) (event : Event) (output : Output) :
    Decidable (session.Drops event output) :=
  inferInstanceAs (Decidable (_ ∨ _))

variable (session : Session)

/-- What is left of the bars if only patterns are against them. -/
theorem filter_drops_eq {event : Event} (hremove : ∀ name, event ≠ .removeOutput name)
    (outputs : List Output) :
  (outputs.filter fun output => ¬ session.Drops event output)
    = match session.patterns? event with
      | none => outputs
      | some patterns => outputs.filter fun output => output.ChosenBy patterns
  := by
  cases hpatterns : session.patterns? event with
  | none =>
    apply List.filter_eq_self.mpr
    intro output _
    simp [Drops, hremove, hpatterns]
  | some patterns =>
    apply List.filter_congr
    intro output _
    simp [Drops, hremove, hpatterns]

/-- What an event does that creates no bar and removes no output. -/
theorem barOutputs_step_of_eq {event : Event} (hremove : ∀ name, event ≠ .removeOutput name)
    (hcreated : session.created? event = none)
    (h : (session.step event).value.1.inst.barOutputs
      = match session.patterns? event with
        | none => session.inst.barOutputs
        | some patterns => session.inst.barOutputs.filter fun output => output.ChosenBy patterns) :
  (session.step event).value.1.inst.barOutputs
    = (session.inst.barOutputs.filter fun output => ¬ session.Drops event output)
      ++ (session.created? event).toList
  := by
  rw [h, hcreated, Option.toList_none, List.append_nil, filter_drops_eq session hremove]

/-- The patterns of a configuration count if it is for the bar. -/
theorem barOutputs_applied (config : Sway.BarConfig) (revealed : Bool) :
  (session.inst.applyBarConfig config revealed).value.1.barOutputs
    = match if config.id = session.inst.barId then some config.outputs else none with
      | none => session.inst.barOutputs
      | some patterns => session.inst.barOutputs.filter fun output => output.ChosenBy patterns
  := by
  by_cases h : config.id = session.inst.barId
  · rw [if_pos h, session.inst.barOutputs_applyBarConfig h]
  · rw [if_neg h, Instance.applyBarConfig, if_pos h]
    rfl

/-- An event leaves the bars that it is not against, and may add one at the end. -/
theorem barOutputs_step (event : Event) :
  (session.step event).value.1.inst.barOutputs
    = (session.inst.barOutputs.filter fun output => ¬ session.Drops event output)
      ++ (session.created? event).toList
  := by
  cases event with
  | addOutput output monitor =>
    rw [filter_drops_eq session (by rintro _ ⟨⟩)]
    rcases session.inst.addOutput_cases output monitor with ⟨-, -, hadded, hbars⟩ | ⟨-, hrefused⟩
    · rw [created?, if_pos hadded]
      exact hbars
    · rw [created?, step, hrefused]
      exact (List.append_nil _).symm
  | removeOutput name =>
    change List.map _ (List.filter _ _) = List.filter _ (List.map _ _) ++ []
    rw [List.append_nil, List.filter_map]
    apply congrArg (List.map _)
    apply List.filter_congr
    intro bar _
    simp [Drops, patterns?, eq_comm]
  | setMode mode =>
    exact barOutputs_step_of_eq _ (by rintro _ ⟨⟩) rfl (session.inst.barOutputs_setMode mode)
  | setPosition name =>
    exact barOutputs_step_of_eq _ (by rintro _ ⟨⟩) rfl (session.inst.barOutputs_setPosition name)
  | setVisible visible =>
    exact barOutputs_step_of_eq _ (by rintro _ ⟨⟩) rfl (Instance.barOutputs_setMode _ _)
  | toggle => exact barOutputs_step_of_eq _ (by rintro _ ⟨⟩) rfl (Instance.barOutputs_setMode _ _)
  | setOutputs patterns =>
    exact barOutputs_step_of_eq _ (by rintro _ ⟨⟩) rfl (session.inst.barOutputs_setOutputs patterns)
  | configure name size =>
    exact barOutputs_step_of_eq _ (by rintro _ ⟨⟩) rfl (session.inst.barOutputs_configure name size)
  | changeMonitor name monitor =>
    exact barOutputs_step_of_eq _ (by rintro _ ⟨⟩) rfl
      (session.inst.barOutputs_onBar name (Bar.confined_changeMonitor ..))
  | setBarMode name mode =>
    exact barOutputs_step_of_eq _ (by rintro _ ⟨⟩) rfl
      (session.inst.barOutputs_onBar name (Bar.confined_changeMode ..))
  | setBarPosition name position =>
    exact barOutputs_step_of_eq _ (by rintro _ ⟨⟩) rfl
      (session.inst.barOutputs_onBar name (Bar.confined_changePosition ..))
  | setStartedBarId id => exact barOutputs_step_of_eq _ (by rintro _ ⟨⟩) rfl rfl
  | applyBarConfig config revealed =>
    exact barOutputs_step_of_eq _ (by rintro _ ⟨⟩) rfl (session.barOutputs_applied config revealed)
  | barConfig config =>
    exact barOutputs_step_of_eq _ (by rintro _ ⟨⟩) rfl (session.barOutputs_applied config _)
  | barStateUpdate update =>
    apply barOutputs_step_of_eq _ (by rintro _ ⟨⟩) rfl
    rw [step, Sway.Sync.onBarStateUpdate]
    split
    · rfl
    · exact session.inst.barOutputs_refresh _
  | modeChange change =>
    exact barOutputs_step_of_eq _ (by rintro _ ⟨⟩) rfl (session.inst.barOutputs_refresh _)
  | urgency urgent =>
    exact barOutputs_step_of_eq _ (by rintro _ ⟨⟩) rfl (session.inst.barOutputs_refresh _)

/-- The patterns in force are those that came last. -/
theorem outputs_step (event : Event) :
  (session.step event).value.1.inst.outputs
    = (session.patterns? event).getD session.inst.outputs
  := by
  cases event with
  | addOutput output monitor =>
    apply congrArg Instance.outputs (session.inst.shared_addOutput output monitor)
  | removeOutput name => rfl
  | setMode mode => exact session.inst.outputs_setMode mode
  | setPosition name =>
    obtain ⟨position, hshared⟩ := session.inst.shared_setPosition name
    apply congrArg Instance.outputs hshared
  | setVisible visible => exact Instance.outputs_setMode _ _
  | toggle => exact Instance.outputs_setMode _ _
  | setOutputs patterns => rfl
  | configure name size =>
    apply congrArg Instance.outputs (session.inst.shared_configure name size)
  | changeMonitor name monitor => rfl
  | setBarMode name mode => rfl
  | setBarPosition name position => rfl
  | setStartedBarId id => rfl
  | applyBarConfig config revealed => exact session.inst.outputs_applyBarConfig config revealed
  | barConfig config => exact session.inst.outputs_applyBarConfig config _
  | barStateUpdate update =>
    rw [step, Sway.Sync.onBarStateUpdate]
    split
    · rfl
    · exact session.inst.outputs_refresh _
  | modeChange change => exact session.inst.outputs_refresh _
  | urgency urgent => exact session.inst.outputs_refresh _

/-! ### What a run does to the bars -/

/-- No event of a run is against the bar on an output. -/
def Remains (output : Output) : (session : Session) → List Event → Prop
  | _, [] => True
  | session, event :: events =>
    ¬ session.Drops event output ∧ Remains output (session.step event).value.1 events

instance decidableRemains (output : Output) :
    (session : Session) → (events : List Event) → Decidable (Remains output session events)
  | _, [] => .isTrue trivial
  | session, event :: events =>
    have := decidableRemains output (session.step event).value.1 events
    inferInstanceAs (Decidable (_ ∧ _))

/-- The outputs on which a run creates bars that remain, in the order of their creation. -/
def standing : (session : Session) → List Event → List Output
  | _, [] => []
  | session, event :: events =>
    ((session.created? event).toList.filter fun output =>
        Remains output (session.step event).value.1 events)
      ++ standing (session.step event).value.1 events

/-- After a run there are the bars from before that remain, and those that it creates. -/
theorem barOutputs_run (events : List Event) :
  (session.run events).value.inst.barOutputs
    = (session.inst.barOutputs.filter fun output => Remains output session events)
      ++ session.standing events
  := by
  induction events generalizing session with
  | nil =>
    have hall : (session.inst.barOutputs.filter fun output => Remains output session [])
        = session.inst.barOutputs := List.filter_eq_self.mpr fun _ _ => rfl
    rw [hall]
    exact (List.append_nil _).symm
  | cons event events ih =>
    rw [value_run_cons, ih, barOutputs_step, List.filter_append, List.filter_filter, standing,
      List.append_assoc]
    congr 1
    apply List.filter_congr
    intro output _
    rw [Bool.and_comm, ← Bool.decide_and]
    rfl

/-! ### Which bars there can be -/

variable {session}

/-- A bar is created only where the patterns choose the output and none is of its name. -/
theorem created?_eq_some {event : Event} {output : Output}
    (h : session.created? event = some output) :
  session.patterns? event = none ∧ output.ChosenBy session.inst.outputs
    ∧ ∀ other ∈ session.inst.barOutputs, other.name ≠ output.name
  := by
  cases event with
  | addOutput output' monitor =>
    rw [created?, Option.ite_none_right_eq_some] at h
    obtain ⟨hadded, houtput⟩ := h
    obtain rfl := Option.some.inj houtput
    rcases session.inst.addOutput_cases output' monitor with ⟨hchosen, hnew, -, -⟩ | ⟨-, hrefused⟩
    · use rfl, hchosen
      intro other hother hname
      rw [(session.inst.hasBar_iff _).mpr ⟨other, hother, hname⟩] at hnew
      cases hnew
    · rw [hrefused] at hadded
      cases hadded
  | _ => cases h

/-- No two bars are on outputs of one name, and the patterns in force choose the output of
each bar. -/
structure Fitting (session : Session) : Prop where
  names : (session.inst.barOutputs.map (·.name)).Nodup
  chosen : ∀ output ∈ session.inst.barOutputs, output.ChosenBy session.inst.outputs

theorem Fitting.step (h : session.Fitting) (event : Event) :
  Fitting (session.step event).value.1
  := by
  constructor
  case names =>
    rw [barOutputs_step, List.map_append]
    apply List.nodup_append.mpr
    constructor
    · apply List.Nodup.sublist _ h.names
      apply List.filter_sublist.map
    · cases hcreated : session.created? event with
      | none => simp
      | some output =>
        obtain ⟨-, -, hnew⟩ := created?_eq_some hcreated
        use List.nodup_singleton _
        intro name hname name' hname'
        obtain ⟨other, hother, rfl⟩ := List.mem_map.mp hname
        rw [List.mem_singleton.mp hname']
        apply hnew other (List.mem_of_mem_filter hother)
  case chosen =>
    intro output houtput
    rw [barOutputs_step] at houtput
    rw [outputs_step]
    rcases List.mem_append.mp houtput with hkept | hcreated
    · obtain ⟨hbar, hkept⟩ := List.mem_filter.mp hkept
      cases hpatterns : session.patterns? event with
      | none => exact h.chosen output hbar
      | some patterns =>
        by_contra hnot
        exact of_decide_eq_true hkept (.inr ⟨patterns, hpatterns, hnot⟩)
    · obtain ⟨hpatterns, hchosen, -⟩ := created?_eq_some (Option.mem_toList.mp hcreated)
      rw [hpatterns]
      exact hchosen

theorem Fitting.run (h : session.Fitting) (events : List Event) :
  Fitting (session.run events).value
  := by
  induction events generalizing session with
  | nil => exact h
  | cons event events ih => exact ih (h.step event)

theorem fitting_ofSettings (settings : Settings) (reset : ModifierReset) :
  (ofSettings settings reset).Fitting
  := ⟨List.nodup_nil, fun _ houtput => absurd houtput List.not_mem_nil⟩

/-- An addition is accepted if the patterns in force choose the output and no bar is on an
output of its name.  Otherwise it changes nothing. -/
theorem step_addOutput (session : Session) (output : Output) (monitor : Rect) :
  let step := session.step (.addOutput output monitor)
  (step.value.2 = some true
      ↔ output.ChosenBy session.inst.outputs
        ∧ ∀ other ∈ session.inst.barOutputs, other.name ≠ output.name)
    ∧ (step.value.2 ≠ some true → step = pure (session, some false))
  := by
  intro step
  have hnew : session.inst.hasBar output.name = false
      ↔ ∀ other ∈ session.inst.barOutputs, other.name ≠ output.name := by
    rw [← Bool.not_eq_true, Instance.hasBar_iff]
    simp
  rw [← hnew]
  rcases session.inst.addOutput_cases output monitor with
    ⟨hchosen, hnew, hadded, -⟩ | ⟨hnot, hrefused⟩
  · have haccepted : step.value.2 = some true := congrArg some hadded
    exact ⟨iff_of_true haccepted ⟨hchosen, hnew⟩, fun h => absurd haccepted h⟩
  · have hstep : step = pure (session, some false) := by
      change session.answering _ = _
      rw [hrefused]
      rfl
    constructor
    · apply iff_of_false _ hnot
      rw [hstep]
      rintro ⟨⟩
    · exact fun _ => hstep

end Session

/-! ### The surfaces of the bars -/

namespace Watched

open Session (Event Remains)

variable {watched : Watched} {output : Output}

/-- The surface of a bar that remains received what the run asks of it. -/
theorem received_run {events : List Event} (hbar : output ∈ watched.inst.barOutputs)
    (hremains : Remains output watched.session events) :
  (watched.run events).received output.name
    = watched.received output.name
      ++ requestsTo output.name (watched.session.run events).log
  := by
  induction events generalizing watched with
  | nil => exact (List.append_nil _).symm
  | cons event events ih =>
    obtain ⟨hkept, hremains⟩ := hremains
    have hstays : output ∈ (watched.step event).inst.barOutputs := by
      change output ∈ (watched.session.step event).value.1.inst.barOutputs
      rw [Session.barOutputs_step]
      apply List.mem_append_left
      apply List.mem_filter.mpr ⟨hbar, decide_eq_true hkept⟩
    have hreceived : (watched.step event).received output.name
        = watched.received output.name
          ++ requestsTo output.name (watched.session.step event).log := by
      have hhas : watched.inst.hasBar output.name :=
        (watched.inst.hasBar_iff _).mpr ⟨output, hbar, rfl⟩
      exact congrArg (· ++ _) (if_pos hhas)
    rw [Session.run_cons, Logged.log_bind, requestsTo_append, Logged.log_map, ← List.append_assoc,
      ← hreceived]
    exact ih hstays hremains

/-- The surface of a bar that remains received what was asked of it since the event that
created it. -/
theorem received_since {event : Event} {events : List Event}
    (hcreated : watched.session.created? event = some output)
    (hremains : Remains output (watched.session.step event).value.1 events) :
  (watched.run (event :: events)).received output.name
    = requestsTo output.name (watched.session.run (event :: events)).log
  := by
  obtain ⟨-, -, hnew⟩ := Session.created?_eq_some hcreated
  have hbar : output ∈ (watched.step event).inst.barOutputs := by
    change output ∈ (watched.session.step event).value.1.inst.barOutputs
    rw [Session.barOutputs_step, hcreated]
    apply List.mem_append_right
    apply List.mem_singleton_self
  have hhas : ¬ watched.inst.hasBar output.name := by
    rw [Instance.hasBar_iff]
    rintro ⟨other, hother, hname⟩
    exact hnew other hother hname
  have hreceived : (watched.step event).received output.name
      = requestsTo output.name (watched.session.step event).log :=
    congrArg (· ++ _) (if_neg hhas)
  rw [Session.run_cons, Logged.log_bind, requestsTo_append, Logged.log_map, ← hreceived]
  exact received_run hbar hremains

theorem run_append (watched : Watched) (events events' : List Event) :
  watched.run (events ++ events') = (watched.run events).run events'
  := List.foldl_append ..

/-- After a run the bars are, in the order of their creation, those that accepted additions
created on outputs that were neither removed since nor turned down by patterns that came
since; and the surface of each received what was asked of it since then.  No two of them are
on outputs of one name, and the patterns in force choose the output of each.  An addition is
accepted if these choose the output and no bar is on an output of its name, and otherwise
changes nothing. -/
theorem bars_of_run (settings : Settings) (reset : ModifierReset) (events : List Event) :
  let start := Session.ofSettings settings reset
  let session := (start.run events).value
  session.inst.barOutputs = start.standing events
    ∧ (∀ earlier event later output, events = earlier ++ event :: later →
      (start.run earlier).value.created? event = some output →
      Remains output ((start.run earlier).value.step event).value.1 later →
      ((ofSettings settings reset).run events).received output.name
        = requestsTo output.name ((start.run earlier).value.run (event :: later)).log)
    ∧ (session.inst.barOutputs.map (·.name)).Nodup
    ∧ (∀ output ∈ session.inst.barOutputs, output.ChosenBy session.inst.outputs)
    ∧ ∀ output monitor,
      let step := session.step (.addOutput output monitor)
      (step.value.2 = some true
          ↔ output.ChosenBy session.inst.outputs
            ∧ ∀ other ∈ session.inst.barOutputs, other.name ≠ output.name)
        ∧ (step.value.2 ≠ some true → step = pure (session, some false))
  := by
  intro start session
  have hfitting := (Session.fitting_ofSettings settings reset).run events
  constructor
  · exact start.barOutputs_run events
  · constructor
    · rintro earlier event later output rfl hcreated hremains
      rw [run_append]
      have hsession := session_run (ofSettings settings reset) earlier
      change _ = (start.run earlier).value at hsession
      rw [← hsession] at hcreated hremains ⊢
      exact received_since hcreated hremains
    · use hfitting.names, hfitting.chosen
      exact session.step_addOutput

/-- A run in which an output goes and comes again under another identifier, and patterns
come from everywhere. -/
def comingAndGoing : List Event :=
  [.addOutput ⟨"DP-1", "Dell"⟩ ⟨0, 0, 1920, 1080⟩, .addOutput ⟨"HDMI-1", ""⟩ ⟨1920, 0, 1280, 720⟩,
   .setOutputs ["!Dell", "*"], .addOutput ⟨"DP-1", "Dell"⟩ ⟨0, 0, 1920, 1080⟩,
   .addOutput ⟨"DP-1", "LG"⟩ ⟨0, 0, 1920, 1080⟩, .addOutput ⟨"DP-2", ""⟩ ⟨0, 0, 800, 600⟩,
   .barConfig { id := "bar-1", mode := "dock", outputs := ["DP-2"] },
   .barConfig { id := "bar-0", mode := "dock", outputs := ["LG", "HDMI-1"] },
   .removeOutput "HDMI-1"]

/-- The new bar on the output that comes again is the only one left, and its surface
received nothing from before. -/
theorem bars_of_run_comingAndGoing :
  ((Session.ofSettings Settings.initial).run comingAndGoing).value.inst.barOutputs
      = [⟨"DP-1", "LG"⟩]
    ∧ comingAndGoing = comingAndGoing.take 4 ++ comingAndGoing.drop 4
    ∧ ((ofSettings Settings.initial).run comingAndGoing).received "DP-1"
      = requestsTo "DP-1"
        (((Session.ofSettings Settings.initial).run (comingAndGoing.take 4)).value.run
          (comingAndGoing.drop 4)).log
    ∧ Output.ChosenBy ⟨"DP-1", "LG"⟩
      ((Session.ofSettings Settings.initial).run comingAndGoing).value.inst.outputs
  := by
  obtain ⟨hbars, hreceived, -, hchosen, -⟩ := bars_of_run Settings.initial _ comingAndGoing
  have hstanding : (Session.ofSettings Settings.initial).standing comingAndGoing
      = [⟨"DP-1", "LG"⟩] := by
    decide
  rw [hstanding] at hbars
  have hsplit : comingAndGoing = comingAndGoing.take 4 ++ comingAndGoing.drop 4 := rfl
  have hsurface := hreceived (comingAndGoing.take 4) _ _ ⟨"DP-1", "LG"⟩ hsplit (by decide)
    (by decide)
  use hbars, hsplit, hsurface
  apply hchosen
  rw [hbars]
  apply List.mem_singleton_self

end Watched

end StatusBar
