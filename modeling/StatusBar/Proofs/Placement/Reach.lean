import Mathlib.Data.List.Basic
import Mathlib.Tactic.Use
import StatusBar.Placement

/-!
# What the walks over groups reach

A reference is reached if a section lists it, or a reached group that is gone into.  The
walk that enters every group once meets just what is reached: when it comes back from a
list, all groups entered on the way are finished, so that those entered before are the only
ones whose lists may not be met in full.  The search for a reference finds it just if the
walk meets it.
-/

namespace StatusBar.Placement

/-- What the sections of a document lead to, where the groups of the given kind are gone
into. -/
inductive Reached (doc : Document) (enters : String → Prop) : String → Prop
  | inSection {list reference : String} (hlist : list ∈ Section.all)
      (hlisted : reference ∈ moduleList doc list) : Reached doc enters reference
  | inGroup {group reference : String} (hgroup : Reached doc enters group)
      (henters : enters group) (hlisted : reference ∈ moduleList doc group) :
      Reached doc enters reference

/-- A list that is a section's, or that of a reached group which is gone into. -/
def Listing (doc : Document) (enters : String → Prop) (list : String) : Prop :=
  list ∈ Section.all ∨ Reached doc enters list ∧ enters list

variable {doc : Document} {enters enters' : String → Prop} {list reference : String}

theorem Listing.reached (h : Listing doc enters list) (hlisted : reference ∈ moduleList doc list) :
  Reached doc enters reference
  := by
  rcases h with hlist | ⟨hgroup, henters⟩
  · exact .inSection hlist hlisted
  · exact .inGroup hgroup henters hlisted

/-- Where more groups are gone into, more is reached. -/
theorem Reached.mono (h : Reached doc enters reference)
    (himp : ∀ group, Reached doc enters group → enters group → enters' group) :
  Reached doc enters' reference
  := by
  induction h with
  | inSection hlist hlisted => exact .inSection hlist hlisted
  | inGroup hgroup henters hlisted ih => exact .inGroup ih (himp _ hgroup henters) hlisted

/-! ### Groups that are left to enter -/

theorem mem_memberNames (h : reference ∈ moduleList doc list) :
  list ∈ memberNames doc
  := by
  by_contra hname
  have hget : doc.get list = .null := by
    cases doc with
    | object members =>
      have hlookup : members.lookup list = none := by
        apply List.lookup_eq_none_iff.mpr
        intro member hmember
        apply bne_iff_ne.mpr
        rintro rfl
        exact hname (List.mem_map_of_mem hmember)
      rw [Document.get, Document.get?, hlookup]
      rfl
    | _ => rfl
  rw [moduleList, hget] at h
  split at h
  · cases h
  · split at h
    · cases h
    · cases h

theorem mem_groupReferences (h : reference ∈ moduleList doc list)
    (hgroup : isGroupReference reference) :
  reference ∈ groupReferences doc
  := by
  apply List.mem_eraseDups.mpr
  apply List.mem_filter.mpr
  exact ⟨List.mem_flatMap.mpr ⟨list, mem_memberNames h, h⟩, hgroup⟩

/-- Names that are rid of repetitions come once. -/
theorem nodup_eraseDups (names : List String) :
  names.eraseDups.Nodup
  := by
  match names with
  | [] => exact List.nodup_nil
  | name :: names =>
    rw [List.eraseDups_cons]
    apply List.nodup_cons.mpr
    constructor
    · simp
    · apply nodup_eraseDups
termination_by names.length
decreasing_by exact Nat.lt_succ_of_le (List.length_filter_le _ _)

/-- The group references of a document that are not among those entered. -/
def remaining (doc : Document) (entered : List String) : List String :=
  (groupReferences doc).filter (· ∉ entered)

theorem length_remaining_le {entered entered' : List String} (h : entered ⊆ entered') :
  (remaining doc entered').length ≤ (remaining doc entered).length
  := by
  apply List.Sublist.length_le
  apply List.monotone_filter_right
  intro reference hreference
  simp only [decide_eq_true_eq] at hreference ⊢
  intro hmem
  exact hreference (h hmem)

/-- Where another one is entered, fewer of some groups are left. -/
theorem length_filter_notMem_lt {groups entered entered' : List String}
    (hsubset : entered ⊆ entered') (h : reference ∈ groups) (hnew : reference ∉ entered)
    (hentered : reference ∈ entered') :
  (groups.filter (· ∉ entered')).length < (groups.filter (· ∉ entered)).length
  := by
  have hfilter : groups.filter (· ∉ entered')
      = (groups.filter (· ∉ entered)).filter (· ∉ entered') := by
    rw [List.filter_filter]
    apply List.filter_congr
    intro other _
    have hother : other ∉ entered' → other ∉ entered := fun hother hmem => hother (hsubset hmem)
    simpa using hother
  rw [hfilter]
  apply List.length_filter_lt_length_iff_exists.mpr
  use reference
  constructor
  · apply List.mem_filter.mpr
    exact ⟨h, decide_eq_true hnew⟩
  · simpa using hentered

/-- Entering another group leaves fewer. -/
theorem length_remaining_cons_lt {entered : List String} (h : reference ∈ groupReferences doc)
    (hnew : reference ∉ entered) :
  (remaining doc (reference :: entered)).length < (remaining doc entered).length
  := length_filter_notMem_lt (List.subset_cons_self _ _) h hnew List.mem_cons_self

theorem length_remaining_lt_walkDepth (entered : List String) :
  (remaining doc entered).length < walkDepth doc
  := Nat.lt_succ_of_le (List.length_filter_le ..)

/-! ### The walk -/

/-- A reference is met in a list whose groups are walked at most `depth` lists deep. -/
def visit (doc : Document) (depth : Nat) (state : Walk) (reference : String) : Walk :=
  let noted := { state with met := reference :: state.met }
  if isGroupReference reference && !state.entered.contains reference then
    walk doc depth reference { noted with entered := reference :: noted.entered }
  else
    noted

theorem walk_succ (depth : Nat) (list : String) (state : Walk) :
  walk doc (depth + 1) list state = (moduleList doc list).foldl (visit doc depth) state
  := rfl

/-- A group that is met for the first time is entered. -/
theorem visit_of_new {depth : Nat} {state : Walk} (hgroup : isGroupReference reference)
    (hnew : reference ∉ state.entered) :
  visit doc depth state reference
    = walk doc depth reference ⟨reference :: state.entered, reference :: state.met⟩
  := by
  have hcontains : state.entered.contains reference = false := by simpa using hnew
  rw [visit, hgroup, hcontains]
  rfl

/-- Anything else is noted. -/
theorem visit_of_not_new {depth : Nat} {state : Walk}
    (h : ¬ (isGroupReference reference ∧ reference ∉ state.entered)) :
  visit doc depth state reference = { state with met := reference :: state.met }
  := by
  rw [visit, if_neg]
  simpa using h

/-- What a walk makes of a state: it notes more, and has finished all groups that it
entered. -/
structure Walk.Extends (doc : Document) (state state' : Walk) : Prop where
  entered : state.entered ⊆ state'.entered
  met : state.met ⊆ state'.met
  finished : ∀ group ∈ state'.entered, group ∈ state.entered ∨ moduleList doc group ⊆ state'.met
  groups : (∀ reference ∈ state.met, isGroupReference reference → reference ∈ state.entered) →
    ∀ reference ∈ state'.met, isGroupReference reference → reference ∈ state'.entered

namespace Walk.Extends

variable {state state' state'' : Walk}

theorem refl (doc : Document) (state : Walk) :
  Extends doc state state
  := by
  constructor
  case entered => exact List.Subset.refl _
  case met => exact List.Subset.refl _
  case finished =>
    intro group hgroup
    exact .inl hgroup
  case groups => exact id

theorem trans (h : Extends doc state state') (h' : Extends doc state' state'') :
  Extends doc state state''
  := by
  constructor
  case entered => exact List.Subset.trans h.entered h'.entered
  case met => exact List.Subset.trans h.met h'.met
  case finished =>
    intro group hgroup
    rcases h'.finished group hgroup with hentered | hfinished
    · rcases h.finished group hentered with hentered | hfinished
      · exact .inl hentered
      · exact .inr (List.Subset.trans hfinished h'.met)
    · exact .inr hfinished
  case groups =>
    intro hgroups
    exact h'.groups (h.groups hgroups)

/-- A reference is noted that is no group, or one that is entered already. -/
theorem note (h : isGroupReference reference → reference ∈ state.entered) :
  Extends doc state { state with met := reference :: state.met }
  := by
  constructor
  case entered => exact List.Subset.refl _
  case met => exact List.subset_cons_self _ _
  case finished =>
    intro group hgroup
    exact .inl hgroup
  case groups =>
    intro hgroups other hother hgroup
    rcases List.mem_cons.mp hother with rfl | hother
    · exact h hgroup
    · exact hgroups other hother hgroup

/-- A group is entered, and its list is walked. -/
theorem enter
    (h : Extends doc ⟨reference :: state.entered, reference :: state.met⟩ state')
    (hfinished : moduleList doc reference ⊆ state'.met) :
  Extends doc state state'
  := by
  constructor
  case entered => exact List.Subset.trans (List.subset_cons_self _ _) h.entered
  case met => exact List.Subset.trans (List.subset_cons_self _ _) h.met
  case finished =>
    intro group hgroup
    rcases h.finished group hgroup with hentered | hlist
    · rcases List.mem_cons.mp hentered with rfl | hentered
      · exact .inr hfinished
      · exact .inl hentered
    · exact .inr hlist
  case groups =>
    intro hgroups
    apply h.groups
    intro other hother hgroup
    rcases List.mem_cons.mp hother with rfl | hother
    · exact List.mem_cons_self
    · exact List.mem_cons_of_mem _ (hgroups other hother hgroup)

end Walk.Extends

/-- A walk that may go deep enough meets all of its list, and finishes what it enters. -/
theorem extends_walk (depth : Nat) (list : String) (state : Walk)
    (hdepth : (remaining doc state.entered).length < depth) :
  state.Extends doc (walk doc depth list state)
    ∧ moduleList doc list ⊆ (walk doc depth list state).met
  := by
  induction depth generalizing list state with
  | zero => cases hdepth
  | succ depth ih =>
    have hvisits : ∀ references ⊆ moduleList doc list, ∀ state : Walk,
        (remaining doc state.entered).length < depth + 1 →
        state.Extends doc (references.foldl (visit doc depth) state)
          ∧ references ⊆ (references.foldl (visit doc depth) state).met := by
      intro references
      induction references with
      | nil =>
        intro _ state _
        exact ⟨.refl doc state, List.nil_subset _⟩
      | cons reference references ih' =>
        intro hlisted state hdepth
        obtain ⟨hreference, hreferences⟩ := List.cons_subset.mp hlisted
        have hvisit : state.Extends doc (visit doc depth state reference)
            ∧ reference ∈ (visit doc depth state reference).met := by
          by_cases hnew : isGroupReference reference ∧ reference ∉ state.entered
          · have hfewer := length_remaining_cons_lt
              (mem_groupReferences hreference hnew.1) hnew.2
            rw [visit_of_new hnew.1 hnew.2]
            obtain ⟨hextends, hlist⟩ := ih reference
              ⟨reference :: state.entered, reference :: state.met⟩
              (Nat.lt_of_lt_of_le hfewer (Nat.le_of_lt_succ hdepth))
            exact ⟨hextends.enter hlist, hextends.met List.mem_cons_self⟩
          · rw [visit_of_not_new hnew]
            rw [not_and, not_not] at hnew
            exact ⟨.note hnew, List.mem_cons_self⟩
        obtain ⟨hextends, hmet⟩ := hvisit
        obtain ⟨hextends', hmet'⟩ := ih' hreferences (visit doc depth state reference)
          (Nat.lt_of_le_of_lt (length_remaining_le hextends.entered) hdepth)
        rw [List.foldl_cons]
        exact ⟨hextends.trans hextends', List.cons_subset.mpr ⟨hextends'.met hmet, hmet'⟩⟩
    rw [walk_succ]
    exact hvisits _ (List.Subset.refl _) state hdepth

/-- A walk meets nothing but what is reached. -/
theorem reached_of_mem_walk (depth : Nat) {list : String}
    (hlist : Listing doc (isGroupReference ·) list) {state : Walk}
    (hstate : ∀ met ∈ state.met, Reached doc (isGroupReference ·) met) :
  ∀ met ∈ (walk doc depth list state).met, Reached doc (isGroupReference ·) met
  := by
  induction depth generalizing list state with
  | zero => exact hstate
  | succ depth ih =>
    rw [walk_succ]
    apply List.foldlRecOn (motive := fun state : Walk =>
      ∀ met ∈ state.met, Reached doc (isGroupReference ·) met) _ _ hstate
    intro state hstate reference hlisted
    have hreference := hlist.reached hlisted
    have hnoted : ∀ met ∈ reference :: state.met, Reached doc (isGroupReference ·) met :=
      List.forall_mem_cons.mpr ⟨hreference, hstate⟩
    by_cases hnew : isGroupReference reference ∧ reference ∉ state.entered
    · rw [visit_of_new hnew.1 hnew.2]
      apply ih _ hnoted
      exact .inr ⟨hreference, hnew.1⟩
    · rw [visit_of_not_new hnew]
      exact hnoted

/-- The walk of some sections, one after the other. -/
def walkAll (doc : Document) (lists : List String) (state : Walk) : Walk :=
  lists.foldl (fun state list => walk doc (walkDepth doc) list state) state

theorem extends_walkAll (lists : List String) (state : Walk) :
  state.Extends doc (walkAll doc lists state)
    ∧ ∀ list ∈ lists, moduleList doc list ⊆ (walkAll doc lists state).met
  := by
  induction lists generalizing state with
  | nil => exact ⟨.refl doc state, List.forall_mem_nil _⟩
  | cons list lists ih =>
    obtain ⟨hextends, hlist⟩ := extends_walk (walkDepth doc) list state
      (length_remaining_lt_walkDepth state.entered)
    obtain ⟨hextends', hlists⟩ := ih (walk doc (walkDepth doc) list state)
    exact ⟨hextends.trans hextends',
      List.forall_mem_cons.mpr ⟨List.Subset.trans hlist hextends'.met, hlists⟩⟩

/-- The walk over a bar's sections meets exactly what is reached where all that looks like
a group is gone into. -/
theorem mem_placed_iff :
  reference ∈ placed doc ↔ Reached doc (isGroupReference ·) reference
  := by
  have hplaced : placed doc = (walkAll doc Section.all {}).met.reverse := rfl
  obtain ⟨hextends, hlists⟩ := @extends_walkAll doc Section.all {}
  have hgroups := hextends.groups (fun met hmet => absurd hmet List.not_mem_nil)
  rw [hplaced, List.mem_reverse]
  constructor
  · apply List.foldlRecOn (motive := fun state : Walk =>
      ∀ met ∈ state.met, Reached doc (isGroupReference ·) met) _ _
      (fun met hmet => absurd hmet List.not_mem_nil)
    intro state hstate list hlist
    apply reached_of_mem_walk _ (.inl hlist) hstate
  · intro h
    induction h with
    | inSection hlist hlisted => exact hlists _ hlist hlisted
    | inGroup hgroup henters hlisted ih =>
      rcases hextends.finished _ (hgroups _ ih henters) with hentered | hfinished
      · cases hentered
      · exact hfinished hlisted

/-! ### The search -/

/-- A search that finds a wanted reference if a walk meets one, and else has entered the
same groups. -/
structure Seeks (wanted : String → Bool) (find : List String → Option (List String))
    (step : Walk → Walk) : Prop where
  keeps : ∀ state, state.met ⊆ (step state).met
  finds : ∀ state, state.met.any wanted = false →
    find state.entered = if (step state).met.any wanted then none else some (step state).entered

namespace Seeks

variable {α : Type} {wanted : String → Bool} {find : List String → α → Option (List String)}
  {step : Walk → α → Walk}

/-- Searches one after the other stop at the first one that finds something. -/
theorem foldlM {items : List α} (h : ∀ item ∈ items, Seeks wanted (find · item) (step · item)) :
  Seeks wanted (fun entered => items.foldlM find entered) (fun state => items.foldl step state)
  := by
  induction items with
  | nil =>
    constructor
    case keeps =>
      intro state
      exact List.Subset.refl _
    case finds =>
      intro state hstate
      change some state.entered = if state.met.any wanted then _ else _
      rw [hstate]
      rfl
  | cons item items ih =>
    obtain ⟨hitem, hitems⟩ := List.forall_mem_cons.mp h
    have hrest := ih hitems
    constructor
    case keeps =>
      intro state
      exact List.Subset.trans (hitem.keeps state) (hrest.keeps (step state item))
    case finds =>
      intro state hstate
      change (find state.entered item >>= fun entered => items.foldlM find entered)
        = if (items.foldl step (step state item)).met.any wanted then none
          else some (items.foldl step (step state item)).entered
      rw [hitem.finds state hstate]
      cases hmet : (step state item).met.any wanted with
      | true =>
        have hmet' : (items.foldl step (step state item)).met.any wanted = true := by
          obtain ⟨reference, hmem, hwanted⟩ := List.any_eq_true.mp hmet
          apply List.any_eq_true.mpr
          exact ⟨reference, hrest.keeps _ hmem, hwanted⟩
        rw [hmet']
        rfl
      | false => exact hrest.finds (step state item) hmet

end Seeks

theorem seeks_walk (wanted : String → Bool) (depth : Nat) (list : String) :
  Seeks wanted (seek doc wanted depth list) (walk doc depth list)
  := by
  induction depth generalizing list with
  | zero =>
    constructor
    case keeps =>
      intro state
      exact List.Subset.refl _
    case finds =>
      intro state hstate
      change some state.entered = if state.met.any wanted then _ else _
      rw [hstate]
      rfl
  | succ depth ih =>
    apply Seeks.foldlM
    intro reference _
    constructor
    case keeps =>
      intro state
      change state.met ⊆ (visit doc depth state reference).met
      by_cases hnew : isGroupReference reference ∧ reference ∉ state.entered
      · rw [visit_of_new hnew.1 hnew.2]
        have hkeeps := (ih reference).keeps ⟨reference :: state.entered, reference :: state.met⟩
        exact List.Subset.trans (List.subset_cons_self reference state.met) hkeeps
      · rw [visit_of_not_new hnew]
        exact List.subset_cons_self _ _
    case finds =>
      intro state hstate
      change _ = if (visit doc depth state reference).met.any wanted then none
        else some (visit doc depth state reference).entered
      by_cases hnew : isGroupReference reference ∧ reference ∉ state.entered
      · have hcontains : state.entered.contains reference = false := by simpa using hnew.2
        rw [visit_of_new hnew.1 hnew.2, hnew.1, hcontains]
        cases hwanted : wanted reference with
        | true =>
          have hmet : (walk doc depth reference
              ⟨reference :: state.entered, reference :: state.met⟩).met.any wanted = true := by
            apply List.any_eq_true.mpr
            exact ⟨reference, (ih reference).keeps _ List.mem_cons_self, hwanted⟩
          rw [hmet]
          rfl
        | false =>
          apply (ih reference).finds ⟨reference :: state.entered, reference :: state.met⟩
          rw [List.any_cons, hwanted, hstate]
          rfl
      · have hold : (isGroupReference reference && !state.entered.contains reference) = false := by
          simpa using hnew
        rw [visit_of_not_new hnew, hold, List.any_cons, hstate, Bool.or_false]
        rfl

/-- The search finds what is reached where all that looks like a group is gone into. -/
theorem isPlaced_iff :
  isPlaced doc reference
    ↔ ∃ name, Reached doc (isGroupReference ·) name ∧ isListedAs reference name
  := by
  have hseeks : Seeks (isListedAs reference)
      (fun entered => Section.all.foldlM
        (fun entered list => seek doc (isListedAs reference) (walkDepth doc) list entered) entered)
      (walkAll doc Section.all) := by
    apply Seeks.foldlM
    intro list _
    apply seeks_walk
  have hany : isPlaced doc reference = (placed doc).any (isListedAs reference) := by
    change Option.isNone _ = (walkAll doc Section.all {}).met.reverse.any _
    rw [hseeks.finds {} rfl, List.any_reverse]
    cases (walkAll doc Section.all {}).met.any (isListedAs reference) with
    | true => rfl
    | false => rfl
  rw [hany, List.any_eq_true]
  simp only [mem_placed_iff]

end StatusBar.Placement
