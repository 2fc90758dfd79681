import StatusBar.Instance
import StatusBar.Proofs.Surface.Display

/-!
# Recordings

A recording holds, for the surface on each output, the requests that it received.
`Logged.Leads` says of a step what holds of its result and of the recording after it; it
follows the steps that a step is made of.  `Recorded` are the bars of a list on outputs of
different names, each of which goes with what its surface shows.
-/

namespace StatusBar

/-- The requests that the surface on each output received. -/
abbrev Recording := String → List Request

namespace Recording

/-- The recording after some more effects. -/
def after (received : Recording) (effects : List Effect) : Recording :=
  fun name => received name ++ requestsTo name effects

/-- What the surface of a bar shows. -/
def display (received : Recording) (bar : Bar) : Display :=
  .replay (received bar.output.name)

@[simp]
theorem after_nil (received : Recording) :
  received.after [] = received
  := by
  funext name
  apply List.append_nil

theorem after_append (received : Recording) (effects effects' : List Effect) :
  received.after (effects ++ effects') = (received.after effects).after effects'
  := by
  funext name
  simp [after, List.append_assoc]

theorem display_after (received : Recording) (effects : List Effect) (bar : Bar) :
  (received.after effects).display bar
    = (received.display bar).receiveAll (requestsTo bar.output.name effects)
  := Display.receiveAll_append ..

end Recording

/-! ### Steps and recordings -/

/-- The result of a step, with the recording after it, satisfies `post`. -/
def Logged.Leads {α : Type} (step : Logged Effect α) (received : Recording)
    (post : α → Recording → Prop) : Prop :=
  post step.value (received.after step.log)

namespace Logged.Leads

variable {α β : Type} {received : Recording}

theorem pure {value : α} {post : α → Recording → Prop} (h : post value received) :
  (Pure.pure value : Logged Effect α).Leads received post
  := by
  rw [Leads, log_pure, Recording.after_nil]
  exact h

/-- A step without requests leaves the recording as it is. -/
theorem ofLog {step : Logged Effect α} {post : α → Recording → Prop}
    (hlog : ∀ name, requestsTo name step.log = []) (h : post step.value received) :
  step.Leads received post
  := by
  have hafter : received.after step.log = received := by
    funext name
    rw [Recording.after, hlog, List.append_nil]
  rw [Leads, hafter]
  exact h

theorem bind {first : Logged Effect α} {next : α → Logged Effect β}
    {mid : α → Recording → Prop} {post : β → Recording → Prop}
    (hfirst : first.Leads received mid)
    (hnext : ∀ value received, mid value received → (next value).Leads received post) :
  (first >>= next).Leads received post
  := by
  have h := hnext _ _ hfirst
  rw [Leads, ← Recording.after_append] at h
  exact h

theorem map {step : Logged Effect α} {f : α → β} {post : β → Recording → Prop}
    (h : step.Leads received fun value received => post (f value) received) :
  (f <$> step).Leads received post
  := by
  rw [← bind_pure_comp]
  apply bind h
  intro value received hpost
  apply pure hpost

end Logged.Leads

/-! ### Changes of several bars -/

namespace Bar

variable {change : Bar → Step Bar}

/-- What all bars ask together of the surface of one of them is what that one asks. -/
theorem Confined.requestsTo_bars (hchange : Confined change) {bars : List Bar}
    (hnames : bars.Pairwise (·.output.name ≠ ·.output.name)) {bar : Bar} (hbar : bar ∈ bars) :
  requestsTo bar.output.name (bars.flatMap fun bar => (change bar).log)
    = requestsTo bar.output.name (change bar).log
  := by
  induction bars with
  | nil => cases hbar
  | cons first bars ih =>
    obtain ⟨hfirst, hbars⟩ := List.pairwise_cons.mp hnames
    rw [List.flatMap_cons, requestsTo_append]
    rcases List.mem_cons.mp hbar with rfl | hbar
    · have hrest : requestsTo bar.output.name (bars.flatMap fun bar => (change bar).log) = [] := by
        rw [requestsTo_flatMap]
        apply List.flatMap_eq_nil_iff.mpr
        intro other hother
        apply hchange.requests _ _ (hfirst other hother).symm
      rw [hrest, List.append_nil]
    · rw [hchange.requests first _ (hfirst bar hbar), List.nil_append]
      apply ih hbars hbar

/-- A change of the bars that satisfy a condition is confined if the change is. -/
theorem Confined.ite (hchange : Confined change) (condition : Bar → Prop)
    [DecidablePred condition] :
  Confined fun bar => if condition bar then change bar else pure bar
  := by
  constructor
  · intro bar
    split
    · apply hchange.output
    · rfl
  · intro bar name hname
    split
    · apply hchange.requests _ _ hname
    · rfl

end Bar

/-- Bars on outputs of different names, each of which is `good` with what its surface
shows. -/
structure Recorded (bars : List Bar) (received : Recording) (good : Bar → Display → Prop) :
    Prop where
  names : bars.Pairwise (·.output.name ≠ ·.output.name)
  good : ∀ bar ∈ bars, good bar (received.display bar)

namespace Recorded

variable {bars : List Bar} {received : Recording} {good good' : Bar → Display → Prop}

theorem nil :
  Recorded [] received good
  := ⟨.nil, fun _ hbar => absurd hbar List.not_mem_nil⟩

/-- Bars may go. -/
theorem filter (h : Recorded bars received good) (keep : Bar → Bool) :
  Recorded (bars.filter keep) received good
  := by
  constructor
  · apply h.names.filter
  · intro bar hbar
    apply h.good bar (List.mem_of_mem_filter hbar)

/-- A bar may come on an output of another name. -/
theorem append (h : Recorded bars received good) {bar : Bar}
    (hname : ∀ other ∈ bars, other.output.name ≠ bar.output.name)
    (hbar : good bar (received.display bar)) :
  Recorded (bars ++ [bar]) received good
  := by
  constructor
  · apply List.pairwise_append.mpr
    use h.names, List.pairwise_singleton ..
    intro other hother bar' hbar'
    rw [List.mem_singleton.mp hbar']
    apply hname other hother
  · intro bar' hbar'
    rcases List.mem_append.mp hbar' with hold | hnew
    · apply h.good bar' hold
    · rw [List.mem_singleton.mp hnew]
      exact hbar

/-- Only what the surfaces of the bars received matters. -/
theorem congr {received' : Recording} (h : Recorded bars received good)
    (heq : ∀ bar ∈ bars, received' bar.output.name = received bar.output.name) :
  Recorded bars received' good
  := by
  constructor
  · exact h.names
  · intro bar hbar
    rw [Recording.display, heq bar hbar]
    apply h.good bar hbar

variable {change : Bar → Step Bar}

/-- A change of all bars. -/
theorem each (h : Recorded bars received good) (hchange : Bar.Confined change)
    (hgood : ∀ bar display, good bar display →
      good' (change bar).value
        (display.receiveAll (requestsTo bar.output.name (change bar).log))) :
  (Logged.each change bars).Leads received fun bars received => Recorded bars received good'
  := by
  rw [Logged.Leads, Logged.value_each, Logged.log_each]
  constructor
  · apply List.pairwise_map.mpr
    simp only [hchange.output]
    exact h.names
  · intro bar' hbar'
    obtain ⟨bar, hbar, rfl⟩ := List.mem_map.mp hbar'
    rw [Recording.display, hchange.output, ← Recording.display, Recording.display_after,
      hchange.requestsTo_bars h.names hbar]
    apply hgood bar _ (h.good bar hbar)

end Recorded

/-! ### Changes of one bar of an instance -/

namespace Instance

/-- Where the names of outputs differ, changing the first bar of a name is changing every
bar of that name. -/
theorem onBar_go_eq (name : String) (change : Bar → Step Bar) {bars : List Bar}
    (hnames : bars.Pairwise (·.output.name ≠ ·.output.name)) :
  Prod.fst <$> onBar.go name change bars
    = Logged.each (fun bar => if bar.output.name = name then change bar else pure bar) bars
  := by
  induction bars with
  | nil => rfl
  | cons first bars ih =>
    obtain ⟨hfirst, hbars⟩ := List.pairwise_cons.mp hnames
    rw [Logged.each_cons, onBar.go]
    by_cases h : first.output.name = name
    · have hrest : ∀ bar ∈ bars,
          (if bar.output.name = name then change bar else pure bar) = pure bar := by
        intro bar hbar
        apply if_neg
        rw [← h]
        apply (hfirst bar hbar).symm
      rw [if_pos h, if_pos h, Logged.each_eq_pure hrest]
      simp
    · rw [if_neg h, if_neg h, ← ih hbars]
      simp

/-- The same of an instance. -/
theorem onBar_eq_onBars (inst : Instance) (name : String) (change : Bar → Step Bar)
    (hnames : inst.bars.Pairwise (·.output.name ≠ ·.output.name)) :
  Prod.fst <$> inst.onBar name change
    = inst.onBars fun bar => if bar.output.name = name then change bar else pure bar
  := by
  rw [onBars, ← onBar_go_eq name change hnames, onBar]
  simp

end Instance

end StatusBar
