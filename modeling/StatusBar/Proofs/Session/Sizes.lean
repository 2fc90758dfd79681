import StatusBar.Proofs.Session.Lives

/-!
# Sizes of bars

A bar goes by the size that it was given last: the fixed one when it is created, and that of
every configuration event since.  It complains about a size whose thickness exceeds that of the
size it goes by.  So what it says of the fixed size holds up to the first configuration event;
later complaints follow the fixed size only where the thickness given last is the fixed one, or
where neither of the two can be exceeded.
-/

namespace StatusBar

/-- The extent of a bar of that direction across its length. -/
def Size.thickness (size : Size) : Orientation → UInt32
  | .horizontal => size.height
  | .vertical => size.width

/-- The complaint about a bar of that direction that has to be thicker than it was to be. -/
def Warning.tooSmall : Orientation → (requested required : UInt32) → Warning
  | .horizontal => .heightTooSmall
  | .vertical => .widthTooSmall

/-- What a bar is to say that goes by one size and is given another. -/
def Size.complaints (orientation : Orientation) (size given : Size) : List Warning :=
  if 1 < size.thickness orientation ∧ size.thickness orientation < given.thickness orientation then
    [.tooSmall orientation (size.thickness orientation) (given.thickness orientation)]
  else
    []

/-- A bar that goes by this size never complains: its thickness is left to the toolkit, or
nothing can exceed it. -/
def Size.Silent (orientation : Orientation) (size : Size) : Prop :=
  size.thickness orientation ≤ 1 ∨ (size.thickness orientation).toNat = UInt32.size - 1

namespace Size

variable {orientation : Orientation} {size size' : Size}

theorem complaints_eq_nil_iff {given : Size} :
  size.complaints orientation given = []
    ↔ ¬ (1 < size.thickness orientation
      ∧ size.thickness orientation < given.thickness orientation)
  := by
  rw [complaints]
  split
  case isTrue h => exact iff_of_false (List.cons_ne_nil _ _) (not_not_intro h)
  case isFalse h => exact iff_of_true rfl h

/-- A complaint tells the thickness that the bar goes by. -/
theorem thickness_eq_of_complaints {given : Size}
    (h : size.complaints orientation given = size'.complaints orientation given)
    (hsome : size.complaints orientation given ≠ []) :
  size.thickness orientation = size'.thickness orientation
  := by
  have hsome' := hsome
  rw [h] at hsome'
  rw [complaints] at h hsome
  rw [complaints] at h hsome'
  split at hsome
  case isFalse => cases hsome rfl
  case isTrue hexceeds =>
    split at hsome'
    case isFalse => cases hsome' rfl
    case isTrue hexceeds' =>
      rw [if_pos hexceeds, if_pos hexceeds'] at h
      cases orientation with
      | horizontal => exact (Warning.heightTooSmall.inj (List.cons.inj h).1).1
      | vertical => exact (Warning.widthTooSmall.inj (List.cons.inj h).1).1

/-- Two sizes are alike to a bar that is given another if they have the same thickness, or none
of them makes it complain. -/
theorem complaints_eq_iff {given : Size} :
  size.complaints orientation given = size'.complaints orientation given
    ↔ size.thickness orientation = size'.thickness orientation
      ∨ size.complaints orientation given = [] ∧ size'.complaints orientation given = []
  := by
  constructor
  · intro h
    by_cases hnone : size.complaints orientation given = []
    · right
      rw [← h]
      exact ⟨hnone, hnone⟩
    · left
      exact thickness_eq_of_complaints h hnone
  · rintro (hsame | ⟨hnone, hnone'⟩)
    · rw [complaints, complaints, hsame]
    · rw [hnone, hnone']

/-- What is one unit thicker, unless nothing is. -/
theorem exists_thicker (h : ¬ size.Silent orientation) :
  ∃ given, size.complaints orientation given ≠ []
  := by
  rw [Silent, not_or, UInt32.not_le] at h
  obtain ⟨hthick, hbound⟩ := h
  have hlt := (size.thickness orientation).toNat_lt_size
  have hthicker : size.thickness orientation < size.thickness orientation + 1 := by
    rw [UInt32.lt_iff_toNat_lt, UInt32.toNat_add]
    simp only [UInt32.size] at hbound hlt
    simp only [UInt32.toNat_one]
    omega
  use ⟨size.thickness orientation + 1, size.thickness orientation + 1⟩
  rw [ne_eq, complaints_eq_nil_iff, not_not]
  use hthick
  cases orientation with
  | horizontal => exact hthicker
  | vertical => exact hthicker

theorem silent_iff :
  size.Silent orientation ↔ ∀ given, size.complaints orientation given = []
  := by
  constructor
  · rintro (hthin | hthickest) given
    · rw [complaints_eq_nil_iff]
      rintro ⟨hthick, -⟩
      exact UInt32.not_le.mpr hthick hthin
    · rw [complaints_eq_nil_iff]
      rintro ⟨-, hexceeds⟩
      rw [UInt32.lt_iff_toNat_lt, hthickest] at hexceeds
      have hlt := (given.thickness orientation).toNat_lt_size
      omega
  · intro h
    by_contra hnot
    obtain ⟨given, hgiven⟩ := exists_thicker hnot
    exact hgiven (h given)

/-- Two sizes are always alike to a bar if they have the same thickness, or none of them ever
makes it complain. -/
theorem forall_complaints_eq_iff :
  (∀ given, size.complaints orientation given = size'.complaints orientation given)
    ↔ size.thickness orientation = size'.thickness orientation
      ∨ size.Silent orientation ∧ size'.Silent orientation
  := by
  constructor
  · intro h
    by_cases hsame : size.thickness orientation = size'.thickness orientation
    · exact .inl hsame
    · right
      have hnone : ∀ given, size.complaints orientation given = []
          ∧ size'.complaints orientation given = [] :=
        fun given => (complaints_eq_iff.mp (h given)).resolve_left hsame
      constructor
      · exact silent_iff.mpr fun given => (hnone given).1
      · exact silent_iff.mpr fun given => (hnone given).2
  · rintro (hsame | ⟨hsilent, hsilent'⟩) given
    · exact complaints_eq_iff.mpr (.inl hsame)
    · rw [silent_iff.mp hsilent, silent_iff.mp hsilent']

end Size

theorem Bar.sizeWarnings_eq (bar : Bar) (given : Size) :
  bar.sizeWarnings given = bar.size.complaints bar.orientation given
  := by
  rw [sizeWarnings]
  cases bar.orientation <;> rfl

/-! ### The size that was given last -/

namespace Session

/-- The size that an event gives to the bar on the output of that name. -/
def Event.given? (name : String) : Event → Option Size
  | .configure name' size => if name' = name then some size else none
  | _ => none

/-- The size that events gave last to the bar on the output of that name. -/
def lastGiven (name : String) (events : List Event) : Option Size :=
  (events.filterMap (Event.given? name)).getLast?

/-- The last of what items bring, with one more item at the end. -/
theorem getLast?_filterMap_concat {α β : Type} (f : α → Option β) (items : List α) (item : α) :
  ((items ++ [item]).filterMap f).getLast? = (f item).or (items.filterMap f).getLast?
  := by
  rw [List.filterMap_append, List.getLast?_append, List.filterMap_cons]
  cases f item <;> rfl

theorem lastGiven_concat (name : String) (events : List Event) (event : Event) :
  lastGiven name (events ++ [event]) = (event.given? name).or (lastGiven name events)
  := getLast?_filterMap_concat ..

theorem Event.given?_eq_none {name : String} {event : Event} (h : event.isMeasureOf name = false) :
  event.given? name = none
  := by
  cases event with
  | configure name' size => exact if_neg (of_decide_eq_false h)
  | _ => rfl

/-- A bar gets the size that an event gives it, and keeps it otherwise. -/
theorem Event.Turns.size {settings : Settings} {event : Event} {bar bar' : Bar}
    (h : event.Turns settings bar bar') :
  bar'.size = (event.given? bar.output.name).getD bar.size
  := by
  cases h with
  | configure bar size =>
    rw [Event.given?, if_pos rfl]
    rfl
  | changeMonitor => rfl
  | restyle hother h =>
    rw [Event.given?_eq_none hother]
    exact h.size

/-- A bar that goes by the size that it was given last does so after any event. -/
theorem Event.Turns.size_eq_lastGiven {settings : Settings} {event : Event} {bar bar' : Bar}
    (h : event.Turns settings bar bar') {life : List Event} {first : Size}
    (hsize : bar.size = (lastGiven bar.output.name life).getD first) :
  bar'.size = (lastGiven bar'.output.name (life ++ [event])).getD first
  := by
  rw [h.size, h.output, hsize, lastGiven_concat]
  cases event.given? bar.output.name <;> rfl

/-- Every bar of a run goes by the size that it was given last in its life, which is the fixed
one as long as no event gave it another. -/
theorem exists_life_size (settings : Settings) (reset : ModifierReset) (events : List Event)
    {bar : Bar} (hbar : bar ∈ ((ofSettings settings reset).run events).value.inst.bars) :
  ∃ life, (ofSettings settings reset).HasLife events bar.output life
    ∧ bar.size = (lastGiven bar.output.name life).getD settings.size
  := by
  apply exists_life settings reset _ _ events hbar
  · intro output monitor position mode
    rfl
  · intro life event bar bar' hturns hsize
    exact hturns.size_eq_lastGiven hsize

/-- What happens to a bar that is given a size: it may complain, and has the size; the others
keep theirs. -/
theorem step_configure {session : Session} (h : session.Fitting) {bar : Bar}
    (hbar : bar ∈ session.inst.bars) (given : Size) :
  let step := session.step (.configure bar.output.name given)
  step.log = (bar.size.complaints bar.orientation given).map .warning
    ∧ step.value.1.inst.bars.map (fun other => (other.output, other.size))
      = session.inst.bars.map fun other =>
        (other.output, if other.output.name = bar.output.name then given else other.size)
  := by
  intro step
  have hstep : session.inst.configure bar.output.name given = Prod.fst <$>
      session.inst.onBar bar.output.name (Bar.configure session.inst.settings given) :=
    if_pos (Instance.hasBar_of_mem hbar)
  constructor
  · have hlog : step.log = (session.inst.configure bar.output.name given).log := List.append_nil _
    rw [hlog, hstep, Logged.log_map, Instance.log_onBar h.pairwise _ hbar, ← Bar.sizeWarnings_eq]
    rfl
  · have hbars : step.value.1.inst.bars
        = (session.inst.configure bar.output.name given).value.bars := rfl
    rw [hbars, hstep, Logged.value_map, Instance.bars_onBar h.pairwise, List.map_map]
    apply List.map_congr_left
    intro other _
    rw [Function.comp_apply]
    split <;> rfl

/-- A bar that is given a size has it, and complains if the size that it goes by has a
thickness of more than one which the size exceeds.  It goes by what it was given last in its
life, and by the fixed size only before that.  So it says what it is to say of the fixed size
just in case the thickness given last is the fixed one, or neither makes it complain; and it
does so of every size just in case the two agree, or neither of them can make it complain. -/
theorem configure_complaints (settings : Settings) (reset : ModifierReset) (events : List Event)
    (given : Size) :
  let session := ((ofSettings settings reset).run events).value
  ∀ bar ∈ session.inst.bars,
    let step := session.step (.configure bar.output.name given)
    (∃ life, (ofSettings settings reset).HasLife events bar.output life
        ∧ bar.size = (lastGiven bar.output.name life).getD settings.size)
      ∧ step.log = (bar.size.complaints bar.orientation given).map .warning
      ∧ step.value.1.inst.bars.map (fun other => (other.output, other.size))
        = session.inst.bars.map (fun other =>
          (other.output, if other.output.name = bar.output.name then given else other.size))
      ∧ (step.log = (settings.size.complaints bar.orientation given).map .warning
        ↔ bar.size.thickness bar.orientation = settings.size.thickness bar.orientation
          ∨ bar.size.complaints bar.orientation given = []
            ∧ settings.size.complaints bar.orientation given = [])
      ∧ ((∀ other, (session.step (.configure bar.output.name other)).log
            = (settings.size.complaints bar.orientation other).map .warning)
        ↔ bar.size.thickness bar.orientation = settings.size.thickness bar.orientation
          ∨ bar.size.Silent bar.orientation ∧ settings.size.Silent bar.orientation)
  := by
  intro session bar hbar step
  have hfitting : session.Fitting := (fitting_ofSettings settings reset).run events
  have hlog : ∀ other, (session.step (.configure bar.output.name other)).log
      = (bar.size.complaints bar.orientation other).map .warning :=
    fun other => (step_configure hfitting hbar other).1
  have hinjective : Function.Injective (List.map Effect.warning) :=
    List.map_injective_iff.mpr fun _ _ => Effect.warning.inj
  use exists_life_size settings reset events hbar, hlog given
  use (step_configure hfitting hbar given).2
  constructor
  · rw [hlog given, hinjective.eq_iff]
    exact Size.complaints_eq_iff
  · rw [← Size.forall_complaints_eq_iff]
    apply forall_congr'
    intro other
    rw [hlog other, hinjective.eq_iff]

/-- A document that fixes the thickness of a bar at the top. -/
def thirtyHigh : Document :=
  .object [("height", .number (.integer 30))]

/-- A run that gives a bar more than it is to have. -/
def grown : List Event :=
  [.addOutput ⟨"DP-1", ""⟩ ⟨0, 0, 1920, 1080⟩, .configure "DP-1" ⟨1920, 40⟩]

/-- A bar that was given forty complains about forty-five, but of the wrong thickness, and not
about forty any more. -/
theorem configure_complaints_grown :
  let settings := (Config.ofDocument thirtyHigh).settings
  let session := ((ofSettings settings).run grown).value
  session.inst.bars.map (·.output.name) = ["DP-1"]
    ∧ ∀ bar ∈ session.inst.bars,
      (session.step (.configure bar.output.name ⟨1920, 40⟩)).log = []
        ∧ (session.step (.configure bar.output.name ⟨1920, 45⟩)).log
          = [.warning (.heightTooSmall 40 45)]
        ∧ (settings.size.complaints bar.orientation ⟨1920, 45⟩).map Effect.warning
          = [.warning (.heightTooSmall 30 45)]
  := by
  intro settings session
  have hbars : ∀ bar ∈ session.inst.bars,
      bar.size = ⟨1920, 40⟩ ∧ bar.orientation = .horizontal := by
    decide
  use by decide
  intro bar hbar
  obtain ⟨hsize, horientation⟩ := hbars bar hbar
  obtain ⟨-, hforty, -⟩ := configure_complaints settings _ grown ⟨1920, 40⟩ bar hbar
  obtain ⟨-, hmore, -⟩ := configure_complaints settings _ grown ⟨1920, 45⟩ bar hbar
  rw [hforty, hmore, hsize, horientation]
  decide

/-- A bar does not always complain about what exceeds its fixed thickness. -/
theorem excess_unnoticed :
  ¬ ∀ (doc : Document) (events : List Event) (given : Size),
    let settings := (Config.ofDocument doc).settings
    let session := ((ofSettings settings).run events).value
    ∀ bar ∈ session.inst.bars,
      (session.step (.configure bar.output.name given)).log
        = (settings.size.complaints bar.orientation given).map .warning
  := by
  intro h
  have hbars := h thirtyHigh grown ⟨1920, 40⟩
  revert hbars
  decide

end Session

end StatusBar
