import StatusBar.Proofs.Config.AltClick
import StatusBar.Proofs.Placement.Tree

/-!
# Where the walks over groups agree

The search for a module, the walk that gives button codes and the tree of a bar go through
the same lists, unless one of these names the bare start of a group reference.  To the tree
that is a module, and to the two others a group, which they go into.
-/

namespace StatusBar

open Placement (Reached isListedAs)

/-- The same lists reach the same. -/
theorem Placement.Reached.congr {doc doc' : Document} {enters : String → Prop}
    {reference : String} (h : Reached doc enters reference)
    (hlists : ∀ list, moduleList doc list = moduleList doc' list) :
  Reached doc' enters reference
  := by
  induction h with
  | @inSection list _ hlist hlisted =>
    rw [hlists list] at hlisted
    apply Reached.inSection hlist hlisted
  | @inGroup group _ hgroup henters hlisted ih =>
    rw [hlists group] at hlisted
    apply Reached.inGroup ih henters hlisted

/-- Button codes do not change what is reached. -/
theorem AltClick.reached_normalize_iff {doc : Document} {enters : String → Prop}
    {reference : String} :
  Reached (normalize doc) enters reference ↔ Reached doc enters reference
  := by
  constructor
  · intro h
    apply h.congr
    apply moduleList_normalize
  · intro h
    apply h.congr
    intro list
    rw [moduleList_normalize]

/-- The modules that are given button codes are what is reached and does not look like a
group. -/
theorem Placement.mem_placedModules_iff {doc : Document} {name : String} :
  name ∈ placedModules doc ↔ Reached doc (isGroupReference ·) name ∧ ¬ isGroupReference name
  := by
  rw [placedModules, List.mem_filter, mem_placed_iff, Bool.not_eq_true', Bool.not_eq_true]

/-- A tree shows a reference, with a style class or without. -/
def ModuleTree.Shows (tree : ModuleTree) (reference : String) : Prop :=
  ∃ name ∈ tree.references, isListedAs reference name

namespace Config

variable {doc : Document} {orientation : Orientation} {reference name : String}

theorem isEnabled_ofDocument_iff :
  (ofDocument doc).isEnabled reference
    ↔ ∃ name, Reached doc (isGroupReference ·) name ∧ isListedAs reference name
  := by
  rw [isEnabled, Placement.isPlaced_iff]
  apply exists_congr
  intro name
  rw [ofDocument, AltClick.reached_normalize_iff]

theorem shows_ofDocument_iff :
  (ModuleTree.resolve (ofDocument doc) orientation).value.Shows reference
    ↔ ∃ name, Reached doc (isWholeGroupReference ·) name ∧ isListedAs reference name
  := by
  apply exists_congr
  intro name
  rw [ModuleTree.mem_references_resolve, ofDocument, AltClick.reached_normalize_iff]

theorem mem_modules_ofDocument_iff :
  name ∈ (ModuleTree.resolve (ofDocument doc) orientation).value.modules
    ↔ Reached doc (isWholeGroupReference ·) name ∧ ¬ isWholeGroupReference name
  := by
  rw [ModuleTree.mem_modules_resolve, ofDocument, AltClick.reached_normalize_iff]

/-- What the tree goes into, the other walks go into. -/
theorem reached_of_whole (h : Reached doc (isWholeGroupReference ·) name) :
  Reached doc (isGroupReference ·) name
  := by
  apply h.mono
  intro group _ hgroup
  apply (isGroupReference_iff group).mpr (.inl hgroup)

/-- If the bare start of a group reference is not reached, the tree goes into all that the
other walks go into. -/
theorem whole_of_reached (hstart : ¬ Reached doc (isWholeGroupReference ·) groupStart)
    (h : Reached doc (isGroupReference ·) name) :
  Reached doc (isWholeGroupReference ·) name
  := by
  induction h with
  | inSection hlist hlisted => apply Reached.inSection hlist hlisted
  | inGroup hgroup henters hlisted ih =>
    rcases (isGroupReference_iff _).mp henters with hwhole | rfl
    · apply Reached.inGroup ih hwhole hlisted
    · cases hstart ih

theorem not_isWholeGroupReference_groupStart :
  ¬ isWholeGroupReference groupStart
  := by
  decide

/-- The bare start of a group reference is a module to the tree wherever it is reached. -/
theorem groupStart_mem_modules_iff :
  groupStart ∈ (ModuleTree.resolve (ofDocument doc) orientation).value.modules
    ↔ Reached doc (isWholeGroupReference ·) groupStart
  := by
  rw [mem_modules_ofDocument_iff]
  apply and_iff_left not_isWholeGroupReference_groupStart

/-- A module of the tree other than the bare start of a group reference is given a button
code. -/
theorem mem_placedModules_of_mem_modules
    (h : name ∈ (ModuleTree.resolve (ofDocument doc) orientation).value.modules)
    (hname : name ≠ groupStart) :
  name ∈ Placement.placedModules doc
  := by
  obtain ⟨hreached, hmodule⟩ := mem_modules_ofDocument_iff.mp h
  apply Placement.mem_placedModules_iff.mpr
  use reached_of_whole hreached
  intro hgroup
  rcases (isGroupReference_iff name).mp hgroup with hwhole | hstart
  · apply hmodule hwhole
  · apply hname hstart

/-- Unless the tree shows the bare start of a group reference, all walks go into the same
groups. -/
theorem reached_iff_of_not_mem
    (hstart : groupStart ∉ (ModuleTree.resolve (ofDocument doc) orientation).value.modules) :
  Reached doc (isGroupReference ·) name ↔ Reached doc (isWholeGroupReference ·) name
  := by
  constructor
  · apply whole_of_reached
    intro hreached
    apply hstart
    apply groupStart_mem_modules_iff.mpr hreached
  · apply reached_of_whole

theorem mem_modules_of_mem_placedModules
    (hstart : groupStart ∉ (ModuleTree.resolve (ofDocument doc) orientation).value.modules)
    (h : name ∈ Placement.placedModules doc) :
  name ∈ (ModuleTree.resolve (ofDocument doc) orientation).value.modules
  := by
  obtain ⟨hname, hmodule⟩ := Placement.mem_placedModules_iff.mp h
  apply mem_modules_ofDocument_iff.mpr
  use (reached_iff_of_not_mem hstart).mp hname
  intro hwhole
  apply hmodule
  apply (isGroupReference_iff name).mpr (.inl hwhole)

/-- The search, the walk for button codes and the tree of a bar agree exactly if the tree
does not show the bare start of a group reference as a module.  In any case the search
finds all that the tree shows, and every other module of the tree that has a second format
has a button code. -/
theorem walks_agree_iff (doc : Document) (orientation : Orientation) :
  let config := ofDocument doc
  let tree := (ModuleTree.resolve config orientation).value
  (((∀ reference, config.isEnabled reference ↔ tree.Shows reference)
        ∧ ∀ name, name ∈ Placement.placedModules doc ↔ name ∈ tree.modules)
      ↔ groupStart ∉ tree.modules)
    ∧ (∀ reference, tree.Shows reference → config.isEnabled reference)
    ∧ (∀ name ∈ tree.modules, name ≠ groupStart → name ∈ Placement.placedModules doc)
    ∧ ∀ name ∈ tree.modules, name ≠ groupStart →
      ∀ members, config.document.get? name = some (.object members) →
        (members.lookup AltClick.formatKey).isSome →
          ∃ code : Nat, members.lookup AltClick.buttonKey = some (.number (.integer code))
  := by
  intro config tree
  constructor
  · constructor
    · rintro ⟨-, hmodules⟩ hstart
      have hplaced := (hmodules groupStart).mpr hstart
      obtain ⟨-, hmodule⟩ := Placement.mem_placedModules_iff.mp hplaced
      apply hmodule
      decide
    · intro hstart
      constructor
      · intro reference
        rw [isEnabled_ofDocument_iff, shows_ofDocument_iff]
        simp only [reached_iff_of_not_mem hstart]
      · intro name
        constructor
        · apply mem_modules_of_mem_placedModules hstart
        · intro hname
          apply mem_placedModules_of_mem_modules hname
          rintro rfl
          apply hstart hname
  · constructor
    · intro reference hshows
      obtain ⟨name, hname, hlisted⟩ := shows_ofDocument_iff.mp hshows
      apply isEnabled_ofDocument_iff.mpr
      use name, reached_of_whole hname
    · constructor
      · intro name hname hother
        apply mem_placedModules_of_mem_modules hname hother
      · intro name hname hother members hmembers hformat
        apply AltClick.lookup_buttonKey_normalize _ hmembers hformat
        apply mem_placedModules_of_mem_modules hname hother

/-- A bar with a clock and with the bare start of a group reference, under which there is a
list. -/
def bareGroup : Document :=
  .object
    [("modules-left", .array [.string "clock", .string "group/"]),
     ("clock", .object [("format-alt", .string "%F")]),
     ("group/", .object [("modules", .array [.string "cpu"])])]

/-- The clock has a button code all the same. -/
theorem walks_agree_iff_bareGroup :
  let config := ofDocument bareGroup
  let tree := (ModuleTree.resolve config .horizontal).value
  "clock" ∈ tree.modules
    ∧ groupStart ∈ tree.modules
    ∧ ∃ members, config.document.get? "clock" = some (.object members)
      ∧ ∃ code : Nat, members.lookup AltClick.buttonKey = some (.number (.integer code))
  := by
  intro config tree
  have hclock : "clock" ∈ tree.modules := by decide
  obtain ⟨-, -, -, hbuttons⟩ := walks_agree_iff bareGroup .horizontal
  use hclock, by decide, [("format-alt", .string "%F"), ("format-alt-click", .number (.integer 1))],
    rfl
  apply hbuttons "clock" hclock (by decide) _ rfl rfl

/-- The search goes into the bare start of a group reference, and the tree does not. -/
theorem walks_disagree :
  ¬ ∀ (doc : Document) (orientation : Orientation) (reference : String),
    (ofDocument doc).isEnabled reference
      ↔ (ModuleTree.resolve (ofDocument doc) orientation).value.Shows reference
  := by
  intro h
  obtain ⟨name, hname, hcpu⟩ := (h bareGroup .horizontal "cpu").mp (by decide)
  revert name
  decide

end Config

end StatusBar
