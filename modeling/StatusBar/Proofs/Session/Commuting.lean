import StatusBar.Proofs.Session.Outputs

/-!
# Changes of bars in either order

A change of the bar of a name goes through the bars up to that one.  Where it is silent, as that
of a monitor is, it may come before or after another such change, of the same bar or of another
one, if it may on a single bar.  So the size of a bar may be settled before or after its monitor
changes.
-/

namespace StatusBar

/-- What is made of the result matters only for what it is. -/
theorem Logged.map_congr {ε α β : Type} {logged : Logged ε α} {f g : α → β}
    (h : f logged.value = g logged.value) :
  f <$> logged = g <$> logged
  := bind_congr (congrArg pure h)

/-- A computation without notes is its value. -/
theorem Logged.eq_pure {ε α : Type} {logged : Logged ε α} (h : logged.log = []) :
  logged = pure logged.value
  := congrArg (mk _) h

/-- A bar may be given its size before or after its monitor changes. -/
theorem Bar.configure_changeMonitor (settings : Settings) (size : Size) (monitor : Rect)
    (bar : Bar) :
  (bar.changeMonitor settings monitor).configure settings size
    = changeMonitor settings monitor <$> bar.configure settings size
  := congrArg (Logged.mk _) (List.append_nil _).symm

namespace Instance

theorem go_cons_of_eq {name : String} {change : Bar → Step Bar} {bar : Bar} {bars : List Bar}
    (h : bar.output.name = name) :
  onBar.go name change (bar :: bars) = (fun bar => (bar :: bars, true)) <$> change bar
  := by
  rw [onBar.go, if_pos h]
  rfl

theorem go_cons_of_ne {name : String} {change : Bar → Step Bar} {bar : Bar} {bars : List Bar}
    (h : bar.output.name ≠ name) :
  onBar.go name change (bar :: bars)
    = (fun found => (bar :: found.1, found.2)) <$> onBar.go name change bars
  := by
  rw [onBar.go, if_neg h]
  rfl

/-- The bars after a silent change of the bar of a name. -/
def changed (name : String) (change : Bar → Bar) (bars : List Bar) : List Bar :=
  (onBar.go name (fun bar => pure (change bar)) bars).value.1

theorem changed_cons_of_eq {name : String} {change : Bar → Bar} {bar : Bar} {bars : List Bar}
    (h : bar.output.name = name) :
  changed name change (bar :: bars) = change bar :: bars
  := by
  rw [changed, go_cons_of_eq h]
  rfl

theorem changed_cons_of_ne {name : String} {change : Bar → Bar} {bar : Bar} {bars : List Bar}
    (h : bar.output.name ≠ name) :
  changed name change (bar :: bars) = bar :: changed name change bars
  := by
  rw [changed, go_cons_of_ne h]
  rfl

/-- A silent change of the bar of a name may come before or after another change, if the two
leave the names, and the one may come before or after the other on a single bar. -/
theorem go_changed (name name' : String) {change : Bar → Step Bar} {change' : Bar → Bar}
    (hname : ∀ bar, (change bar).value.output.name = bar.output.name)
    (hname' : ∀ bar, (change' bar).output.name = bar.output.name)
    (hcomm : ∀ bar, change (change' bar) = change' <$> change bar) (bars : List Bar) :
  onBar.go name change (changed name' change' bars)
    = (fun found => (changed name' change' found.1, found.2)) <$> onBar.go name change bars
  := by
  induction bars with
  | nil => rfl
  | cons bar bars ih =>
    -- The bar is that of both names, of one of them, or of none.
    by_cases h : bar.output.name = name <;> by_cases h' : bar.output.name = name'
    · rw [changed_cons_of_eq h', go_cons_of_eq ((hname' bar).trans h), hcomm, go_cons_of_eq h,
        Functor.map_map, Functor.map_map]
      apply Logged.map_congr
      rw [changed_cons_of_eq ((hname bar).trans h')]
    · rw [changed_cons_of_ne h', go_cons_of_eq h, go_cons_of_eq h, Functor.map_map]
      apply Logged.map_congr
      rw [changed_cons_of_ne (ne_of_eq_of_ne (hname bar) h')]
    · rw [changed_cons_of_eq h', go_cons_of_ne (ne_of_eq_of_ne (hname' bar) h), go_cons_of_ne h,
        Functor.map_map]
      apply Logged.map_congr
      rw [changed_cons_of_eq h']
    · rw [changed_cons_of_ne h', go_cons_of_ne h, go_cons_of_ne h, ih, Functor.map_map,
        Functor.map_map]
      apply Logged.map_congr
      rw [changed_cons_of_ne h']

/-- Nothing is noted where the change of the bar notes nothing. -/
theorem log_go_pure (name : String) (change : Bar → Bar) (bars : List Bar) :
  (onBar.go name (fun bar => pure (change bar)) bars).log = []
  := by
  induction bars with
  | nil => rfl
  | cons bar bars ih =>
    by_cases h : bar.output.name = name
    · rw [go_cons_of_eq h, Logged.log_map, Logged.log_pure]
    · rw [go_cons_of_ne h, Logged.log_map, ih]

variable (inst : Instance)

theorem onBar_eq (name : String) (change : Bar → Step Bar) :
  inst.onBar name change
    = (fun found => ({ inst with bars := found.1 }, found.2))
        <$> onBar.go name change inst.bars
  := rfl

theorem value_changeMonitor (name : String) (monitor : Rect) :
  (inst.changeMonitor name monitor).value.1
    = { inst with bars := changed name (Bar.changeMonitor inst.settings monitor) inst.bars }
  := rfl

theorem log_changeMonitor (name : String) (monitor : Rect) :
  (inst.changeMonitor name monitor).log = []
  := by
  rw [changeMonitor, onBar_eq, Logged.log_map, log_go_pure]

theorem hasBar_changeMonitor (name name' : String) (monitor : Rect) :
  (inst.changeMonitor name' monitor).value.1.hasBar name = inst.hasBar name
  := by
  rw [Bool.eq_iff_iff, hasBar_iff, hasBar_iff, changeMonitor,
    barOutputs_onBar _ _ (Bar.confined_changeMonitor ..)]

/-- The bar of one name may be given its size before or after the monitor under that of another
name changes, also where the names are the same. -/
theorem configure_changeMonitor (name name' : String) (size : Size) (monitor : Rect) :
  (inst.changeMonitor name' monitor).value.1.configure name size
    = (fun inst => (inst.changeMonitor name' monitor).value.1) <$> inst.configure name size
  := by
  rw [configure, configure, hasBar_changeMonitor]
  split
  case isTrue =>
    have hbars : onBar.go name (Bar.configure inst.settings size)
          (changed name' (Bar.changeMonitor inst.settings monitor) inst.bars)
        = (fun found => (changed name' (Bar.changeMonitor inst.settings monitor) found.1, found.2))
          <$> onBar.go name (Bar.configure inst.settings size) inst.bars := by
      apply go_changed
      · exact fun _ => rfl
      · exact fun _ => rfl
      · exact Bar.configure_changeMonitor inst.settings size monitor
    rw [onBar_eq, value_changeMonitor, hbars, onBar_eq, Functor.map_map, Functor.map_map,
      Functor.map_map, Functor.map_map]
    rfl
  case isFalse => rfl

end Instance

namespace Session

variable (session : Session)

theorem fst_step_configure (name : String) (size : Size) :
  Prod.fst <$> session.step (.configure name size)
    = (fun inst => { session with inst }) <$> session.inst.configure name size
  := by
  rw [step, quietly, map_bind]
  rfl

theorem fst_step_changeMonitor (name : String) (monitor : Rect) :
  Prod.fst <$> session.step (.changeMonitor name monitor)
    = pure { session with inst := (session.inst.changeMonitor name monitor).value.1 }
  := by
  apply Logged.eq_pure
  rw [Logged.log_map, step, answering, Logged.log_bind, Instance.log_changeMonitor]
  rfl

/-- The toolkit may settle on a size before or after a monitor changes. -/
theorem run_configure_changeMonitor (name name' : String) (size : Size) (monitor : Rect) :
  session.run [.configure name size, .changeMonitor name' monitor]
    = session.run [.changeMonitor name' monitor, .configure name size]
  := by
  simp only [run, List.foldlM_cons, List.foldlM_nil, fst_step_configure, fst_step_changeMonitor,
    pure_bind, bind_pure]
  rw [Instance.configure_changeMonitor, Functor.map_map]
  simp

end Session

end StatusBar
