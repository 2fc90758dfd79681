import StatusBar.ModuleTree
import StatusBar.Proofs.Placement.Reach

/-!
# What module trees show

The references that a tree shows are those that its sections lead to, where only whole
references to groups are gone into: leaving a group out inside itself loses nothing, since
what it lists is shown where it is entered.  The bare start of a group reference is a
module to a tree.
-/

namespace StatusBar

/-- Whether a reference to a group has something after its start. -/
def isWholeGroupReference (reference : String) : Bool :=
  (GroupReference.ofText? reference).isSome

/-- What starts like a reference to a group is a whole one, or the start alone. -/
theorem isGroupReference_iff (reference : String) :
  isGroupReference reference ↔ isWholeGroupReference reference ∨ reference = groupStart
  := by
  rw [isGroupReference, Text.beginsWith, ← List.isSome_isPrefixOf?_eq_isPrefixOf,
    isWholeGroupReference, GroupReference.ofText?, Text.after?]
  cases hrest : groupStart.toList.isPrefixOf? reference.toList with
  | none =>
    constructor
    · intro h
      cases h
    · rintro (h | rfl)
      · cases h
      · revert hrest
        decide
  | some rest =>
    have happend := List.isPrefixOf?_eq_some_iff_append_eq.mp hrest
    apply iff_of_true rfl
    by_cases hempty : String.ofList rest = ""
    · right
      have hnil : rest = [] := String.ofList_eq_empty_iff.mp hempty
      rw [hnil, List.append_nil] at happend
      exact (String.toList_inj.mp happend).symm
    · left
      simp [hempty]

namespace Node

mutual

/-- The references of a node and of all nodes below it, depth first. -/
def references : Node → List String
  | .module name => [name]
  | .group reference _ _ children => reference :: referencesOf children

/-- The references of nodes and of all nodes below them, depth first. -/
def referencesOf : List Node → List String
  | [] => []
  | node :: nodes => node.references ++ referencesOf nodes

end

theorem mem_referencesOf {nodes : List Node} {reference : String} :
  reference ∈ referencesOf nodes ↔ ∃ node ∈ nodes, reference ∈ node.references
  := by
  induction nodes with
  | nil => simp [referencesOf]
  | cons node nodes ih => simp [referencesOf, ih]

theorem mem_modulesOf {nodes : List Node} {name : String} :
  name ∈ modulesOf nodes ↔ ∃ node ∈ nodes, name ∈ node.modules
  := by
  induction nodes with
  | nil => simp [modulesOf]
  | cons node nodes ih => simp [modulesOf, ih]

variable {doc : Document} {depth : Nat} {path : List String} {outer : Orientation}
  {list reference : String} {parts : GroupReference}

/-! ### One reference of a list -/

/-- The nodes below a group. -/
def children (doc : Document) (depth : Nat) (path : List String) (outer : Orientation)
    (reference : String) : List Node :=
  (ofList doc depth (reference :: path) ((groupOrientation doc reference).resolve outer)
    reference).value

/-- The node of a reference that is listed, if it has one. -/
def ofReference (doc : Document) (depth : Nat) (path : List String) (outer : Orientation)
    (list reference : String) : Logged Warning (Option Node) :=
  match GroupReference.ofText? reference with
  | none => pure (some (Node.module reference))
  | some parts =>
    if path.contains reference then
      Logged.withNotes [.groupInsideItself reference list] none
    else do
      let orientation := (groupOrientation doc reference).resolve outer
      let children ← Node.ofList doc depth (reference :: path) orientation reference
      return some (Node.group reference parts orientation children)

theorem value_ofList_succ :
  (ofList doc (depth + 1) path outer list).value
    = (moduleList doc list).filterMap fun reference =>
      (ofReference doc depth path outer list reference).value
  := by
  rw [ofList, Logged.value_bind, Logged.value_pure, Logged.value_each, List.filterMap_map]
  rfl

theorem log_ofList_succ :
  (ofList doc (depth + 1) path outer list).log
    = (moduleList doc list).flatMap fun reference =>
      (ofReference doc depth path outer list reference).log
  := by
  rw [ofList, Logged.log_bind, Logged.log_each, Logged.log_pure, List.append_nil]
  rfl

theorem ofReference_module (hname : GroupReference.ofText? reference = none) :
  ofReference doc depth path outer list reference = pure (some (.module reference))
  := by
  rw [ofReference, hname]

/-- A group is left out inside itself. -/
theorem ofReference_inside (hparts : GroupReference.ofText? reference = some parts)
    (hinside : reference ∈ path) :
  ofReference doc depth path outer list reference
    = Logged.withNotes [.groupInsideItself reference list] none
  := by
  have hcontains : path.contains reference = true := by simpa using hinside
  rw [ofReference, hparts]
  exact if_pos hcontains

/-- Anywhere else it is entered. -/
theorem ofReference_group (hparts : GroupReference.ofText? reference = some parts)
    (hnew : reference ∉ path) :
  let orientation := (groupOrientation doc reference).resolve outer
  ofReference doc depth path outer list reference
    = (fun children => some (.group reference parts orientation children)) <$>
      ofList doc depth (reference :: path) orientation reference
  := by
  have hcontains : ¬ path.contains reference = true := by simpa using hnew
  rw [ofReference, hparts]
  exact if_neg hcontains

/-! ### The references of a list -/

/-- The nodes of a list are the modules that it lists, and the groups that it is not
inside of. -/
theorem mem_ofList_succ {node : Node} :
  node ∈ (ofList doc (depth + 1) path outer list).value
    ↔ ∃ reference ∈ moduleList doc list,
      GroupReference.ofText? reference = none ∧ node = .module reference
        ∨ reference ∉ path ∧ ∃ parts, GroupReference.ofText? reference = some parts
          ∧ node = .group reference parts ((groupOrientation doc reference).resolve outer)
              (children doc depth path outer reference)
  := by
  rw [value_ofList_succ, List.mem_filterMap]
  apply exists_congr
  intro reference
  apply and_congr_right
  intro _
  cases hparts : GroupReference.ofText? reference with
  | none => simp [ofReference_module hparts, eq_comm]
  | some parts =>
    by_cases hpath : reference ∈ path
    · simp [ofReference_inside hparts hpath, hpath, Logged.withNotes]
    · simp [ofReference_group hparts hpath, hpath, children, eq_comm]

/-- What a list shows is what it lists and what the groups show that are entered. -/
theorem mem_referencesOf_ofList_succ {shown : String} :
  shown ∈ referencesOf (ofList doc (depth + 1) path outer list).value
    ↔ ∃ reference ∈ moduleList doc list,
      ¬ isWholeGroupReference reference ∧ shown = reference
        ∨ isWholeGroupReference reference ∧ reference ∉ path
          ∧ (shown = reference ∨ shown ∈ referencesOf (children doc depth path outer reference))
  := by
  rw [mem_referencesOf]
  constructor
  · rintro ⟨node, hnode, hshown⟩
    obtain ⟨reference, hlisted, ⟨hparts, rfl⟩ | ⟨hpath, parts, hparts, rfl⟩⟩ :=
      mem_ofList_succ.mp hnode
    · use reference, hlisted
      left
      exact ⟨by simp [isWholeGroupReference, hparts], List.mem_singleton.mp hshown⟩
    · use reference, hlisted
      right
      exact ⟨by simp [isWholeGroupReference, hparts], hpath, List.mem_cons.mp hshown⟩
  · rintro ⟨reference, hlisted, ⟨hmodule, rfl⟩ | ⟨hgroup, hpath, hshown⟩⟩
    · use .module shown
      constructor
      · apply mem_ofList_succ.mpr
        use shown, hlisted
        left
        exact ⟨Option.not_isSome_iff_eq_none.mp hmodule, rfl⟩
      · exact List.mem_singleton_self shown
    · obtain ⟨parts, hparts⟩ := Option.isSome_iff_exists.mp hgroup
      use .group reference parts ((groupOrientation doc reference).resolve outer)
        (children doc depth path outer reference)
      constructor
      · apply mem_ofList_succ.mpr
        use reference, hlisted
        right
        exact ⟨hpath, parts, hparts, rfl⟩
      · exact List.mem_cons.mpr hshown

/-- The modules shown are those references shown that are no whole references to groups. -/
theorem mem_modulesOf_ofList {name : String} :
  name ∈ modulesOf (ofList doc depth path outer list).value
    ↔ name ∈ referencesOf (ofList doc depth path outer list).value
      ∧ ¬ isWholeGroupReference name
  := by
  induction depth generalizing path outer list with
  | zero => simp [ofList, modulesOf, referencesOf]
  | succ depth ih =>
    rw [mem_modulesOf, mem_referencesOf, ← exists_and_right]
    apply exists_congr
    intro node
    rw [and_assoc]
    apply and_congr_right
    intro hnode
    obtain ⟨reference, -, ⟨hparts, rfl⟩ | ⟨-, parts, hparts, rfl⟩⟩ := mem_ofList_succ.mp hnode
    · have hmodule : ¬ isWholeGroupReference reference := by
        simp [isWholeGroupReference, hparts]
      simp only [modules, references, List.mem_singleton]
      constructor
      · rintro rfl
        exact ⟨rfl, hmodule⟩
      · exact And.left
    · have hgroup : isWholeGroupReference reference := by simp [isWholeGroupReference, hparts]
      rw [modules, references, List.mem_cons, children, ih]
      constructor
      · rintro ⟨hshown, hmodule⟩
        exact ⟨.inr hshown, hmodule⟩
      · rintro ⟨rfl | hshown, hmodule⟩
        · cases hmodule hgroup
        · exact ⟨hshown, hmodule⟩

/-! ### What is shown -/

open Placement (Reached Listing remaining)

/-- Only what is reached is shown. -/
theorem reached_of_mem_referencesOf (hlist : Listing doc (isWholeGroupReference ·) list)
    {shown : String} (h : shown ∈ referencesOf (ofList doc depth path outer list).value) :
  Reached doc (isWholeGroupReference ·) shown
  := by
  induction depth generalizing path outer list with
  | zero => cases h
  | succ depth ih =>
    obtain ⟨reference, hlisted, ⟨-, rfl⟩ | ⟨hgroup, -, rfl | hshown⟩⟩ :=
      mem_referencesOf_ofList_succ.mp h
    · exact hlist.reached hlisted
    · exact hlist.reached hlisted
    · exact ih (.inr ⟨hlist.reached hlisted, hgroup⟩) hshown

/-- A reference of the list is shown, unless the list is inside of it. -/
theorem mem_referencesOf_of_listed {reference : String}
    (hlisted : reference ∈ moduleList doc list)
    (hpath : isWholeGroupReference reference → reference ∉ path) :
  reference ∈ referencesOf (ofList doc (depth + 1) path outer list).value
  := by
  apply mem_referencesOf_ofList_succ.mpr
  use reference, hlisted
  by_cases hgroup : isWholeGroupReference reference
  · exact .inr ⟨hgroup, hpath hgroup, .inl rfl⟩
  · exact .inl ⟨hgroup, rfl⟩

/-- Entering a group leaves fewer to enter. -/
theorem length_remaining_of_listed {reference : String}
    (hlisted : reference ∈ moduleList doc list) (hgroup : isWholeGroupReference reference)
    (hnew : reference ∉ path) (hdepth : (remaining doc path).length < depth + 1) :
  (remaining doc (reference :: path)).length < depth
  := by
  apply Nat.lt_of_lt_of_le _ (Nat.le_of_lt_succ hdepth)
  apply Placement.length_remaining_cons_lt _ hnew
  apply Placement.mem_groupReferences hlisted
  exact (isGroupReference_iff reference).mpr (.inl hgroup)

/-- What a group lists that is shown is shown as well, unless the whole list is inside of
it. -/
theorem mem_referencesOf_of_group (hdepth : (remaining doc path).length < depth)
    {group reference : String}
    (hshown : group ∈ referencesOf (ofList doc depth path outer list).value)
    (hgroup : isWholeGroupReference group) (hlisted : reference ∈ moduleList doc group)
    (hpath : isWholeGroupReference reference → reference ∉ path) :
  reference ∈ referencesOf (ofList doc depth path outer list).value
  := by
  induction depth generalizing path outer list with
  | zero => cases hdepth
  | succ depth ih =>
    obtain ⟨entered, hentered, ⟨hmodule, rfl⟩ | ⟨hgroup', hnew, hbelow⟩⟩ :=
      mem_referencesOf_ofList_succ.mp hshown
    · cases hmodule hgroup
    · apply mem_referencesOf_ofList_succ.mpr
      use entered, hentered
      right
      use hgroup', hnew
      by_cases hself : reference = entered
      · exact .inl hself
      · right
        have hpath' : isWholeGroupReference reference → reference ∉ entered :: path := by
          intro hwhole
          exact List.not_mem_cons_of_ne_of_not_mem hself (hpath hwhole)
        have hfewer := length_remaining_of_listed hentered hgroup' hnew hdepth
        rcases hbelow with rfl | hbelow
        · obtain ⟨depth, rfl⟩ := Nat.exists_eq_succ_of_ne_zero (Nat.ne_zero_of_lt hfewer)
          exact mem_referencesOf_of_listed hlisted hpath'
        · exact ih hfewer hbelow hpath'

end Node

namespace ModuleTree

open Placement (Reached)

variable {config : Config} {orientation : Orientation} {name : String}

/-- The references that a tree shows, section by section and depth first. -/
def references (tree : ModuleTree) : List String :=
  Section.all.flatMap fun list => Node.referencesOf (tree.nodesOf list)

/-- Every section of a tree holds the nodes of its list. -/
theorem nodesOf_resolve {list : String} (h : list ∈ Section.all) :
  (resolve config orientation).value.nodesOf list
    = (resolveSection config.document orientation list).value
  := by
  simp only [Section.all, List.mem_cons, List.not_mem_nil, or_false] at h
  rcases h with rfl | rfl | rfl
  · rfl
  · rfl
  · rfl

theorem mem_references_iff :
  name ∈ (resolve config orientation).value.references
    ↔ ∃ list ∈ Section.all,
      name ∈ Node.referencesOf (resolveSection config.document orientation list).value
  := by
  rw [references, List.mem_flatMap]
  apply exists_congr
  intro list
  apply and_congr_right
  intro hlist
  rw [nodesOf_resolve hlist]

/-- A tree shows exactly what is reached where whole references to groups are gone into. -/
theorem mem_references_resolve :
  name ∈ (resolve config orientation).value.references
    ↔ Reached config.document (isWholeGroupReference ·) name
  := by
  rw [mem_references_iff]
  constructor
  · rintro ⟨list, hlist, hname⟩
    exact Node.reached_of_mem_referencesOf (.inl hlist) hname
  · intro h
    induction h with
    | @inSection list _ hlist hlisted =>
      use list, hlist
      apply Node.mem_referencesOf_of_listed hlisted
      intro _
      apply List.not_mem_nil
    | inGroup hgroup henters hlisted ih =>
      obtain ⟨list, hlist, hshown⟩ := ih
      use list, hlist
      apply Node.mem_referencesOf_of_group (Placement.length_remaining_lt_walkDepth []) hshown
        henters hlisted
      intro _
      apply List.not_mem_nil

/-- Its modules are what is reached and no whole reference to a group. -/
theorem mem_modules_resolve :
  name ∈ (resolve config orientation).value.modules
    ↔ Reached config.document (isWholeGroupReference ·) name ∧ ¬ isWholeGroupReference name
  := by
  rw [← @mem_references_resolve _ orientation, mem_references_iff, modules,
    List.mem_flatMap, ← exists_and_right]
  apply exists_congr
  intro list
  rw [and_assoc]
  apply and_congr_right
  intro hlist
  rw [nodesOf_resolve hlist]
  exact Node.mem_modulesOf_ofList

end ModuleTree

end StatusBar
