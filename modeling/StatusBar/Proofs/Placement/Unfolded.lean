import Mathlib.Data.List.Forall2
import Mathlib.Data.List.Perm.Basic
import StatusBar.Proofs.Placement.Listed
import StatusBar.Proofs.Placement.Tree

/-!
# Trees as unfoldings

A tree unfolds the graph of a document's groups along the paths on which no group comes twice.
A `Branch` is a list within a tree, together with the groups that it is inside of.  On every
branch there stand the nodes of what its list names, in order, without the groups that it is
inside of; and for each reference that is left out there is one warning.
-/

namespace StatusBar

/-- A listed reference and a node that it is shown as: a group, if the reference can be taken
apart, and a module if not. -/
inductive ShownAs : String → Node → Prop
  | module {name : String} (hname : GroupReference.ofText? name = none) :
    ShownAs name (.module name)
  | group {reference : String} {parts : GroupReference} {orientation : Orientation}
    {children : List Node} (hparts : GroupReference.ofText? reference = some parts) :
    ShownAs reference (.group reference parts orientation children)

/-- A list within a tree. -/
structure Branch where
  /-- The groups that the list is inside of, the innermost first.  It is the list of that one,
  and the list of a section if there is none. -/
  path : List String
  /-- The section or the group whose list it is. -/
  list : String
  /-- The nodes that the list is shown as. -/
  nodes : List Node

namespace Branch

/-- What is listed and shown on a branch: not the groups that it is inside of. -/
def kept (doc : Document) (branch : Branch) : List String :=
  (moduleList doc branch.list).filter (· ∉ branch.path)

/-- The complaints about what is listed and not shown on a branch. -/
def complaints (doc : Document) (branch : Branch) : List Warning :=
  ((moduleList doc branch.list).filter (· ∈ branch.path)).map (.groupInsideItself · branch.list)

end Branch

namespace Node

mutual

/-- The branches of a node that is inside of some groups, and of the nodes below it. -/
def branches (path : List String) : Node → List Branch
  | .module _ => []
  | .group reference _ _ children =>
    ⟨reference :: path, reference, children⟩ :: branchesOf (reference :: path) children

/-- The branches of nodes that are inside of some groups, and of the nodes below them. -/
def branchesOf (path : List String) : List Node → List Branch
  | [] => []
  | node :: nodes => node.branches path ++ branchesOf path nodes

end

/-- The branch of a list that is inside of some groups, and those below it. -/
def branchesFrom (path : List String) (list : String) (nodes : List Node) : List Branch :=
  ⟨path, list, nodes⟩ :: branchesOf path nodes

variable {doc : Document} {depth : Nat} {path : List String} {outer : Orientation}
  {list reference : String} {parts : GroupReference}

theorem mem_branchesOf {nodes : List Node} {branch : Branch} :
  branch ∈ branchesOf path nodes ↔ ∃ node ∈ nodes, branch ∈ node.branches path
  := by
  induction nodes with
  | nil => simp [branchesOf]
  | cons node nodes ih => simp [branchesOf, ih]

/-! ### The branches of a list -/

/-- The groups that a branch may be inside of: none of them twice. -/
structure IsPath (path : List String) : Prop where
  nodup : path.Nodup
  whole : ∀ group ∈ path, isWholeGroupReference group

theorem IsPath.nil :
  IsPath []
  := ⟨List.nodup_nil, List.forall_mem_nil _⟩

theorem IsPath.cons (h : IsPath path) (hparts : GroupReference.ofText? reference = some parts)
    (hnew : reference ∉ path) :
  IsPath (reference :: path)
  := by
  constructor
  · exact List.nodup_cons.mpr ⟨hnew, h.nodup⟩
  · rw [List.forall_mem_cons]
    use Option.isSome_iff_exists.mpr ⟨parts, hparts⟩, h.whole

/-- A module is no group that a branch is inside of. -/
theorem IsPath.not_mem (h : IsPath path) (hname : GroupReference.ofText? reference = none) :
  reference ∉ path
  := by
  intro hmem
  have hwhole := h.whole reference hmem
  rw [isWholeGroupReference, hname] at hwhole
  cases hwhole

/-- What a branch is to be like: it is not inside of any group twice, and shows all that it
lists but the groups that it is inside of. -/
structure Unfolds (doc : Document) (branch : Branch) : Prop where
  isPath : IsPath branch.path
  shown : List.Forall₂ ShownAs (branch.kept doc) branch.nodes

theorem unfolds_list (h : IsPath path) :
  Unfolds doc ⟨path, list, (ofList doc (depth + 1) path outer list).value⟩
  := by
  use h
  rw [value_ofList_succ, Branch.kept]
  generalize moduleList doc list = references
  induction references with
  | nil => exact .nil
  | cons reference references ih =>
    rw [List.filterMap_cons]
    cases hparts : GroupReference.ofText? reference with
    | none =>
      rw [List.filter_cons_of_pos (by simpa using h.not_mem hparts), ofReference_module hparts]
      exact .cons (.module hparts) ih
    | some parts =>
      by_cases hinside : reference ∈ path
      · rw [List.filter_cons_of_neg (by simpa using hinside), ofReference_inside hparts hinside]
        exact ih
      · rw [List.filter_cons_of_pos (by simpa using hinside), ofReference_group hparts hinside]
        exact .cons (.group hparts) ih

/-- All branches of a list that is unfolded deep enough are like that. -/
theorem unfolds_ofList (hdepth : (Placement.remaining doc path).length < depth)
    (h : IsPath path) :
  ∀ branch ∈ branchesFrom path list (ofList doc depth path outer list).value, Unfolds doc branch
  := by
  induction depth generalizing path outer list with
  | zero => cases hdepth
  | succ depth ih =>
    rw [branchesFrom, List.forall_mem_cons]
    use unfolds_list h
    intro branch hbranch
    obtain ⟨node, hnode, hbranch⟩ := mem_branchesOf.mp hbranch
    obtain ⟨reference, hlisted, ⟨-, rfl⟩ | ⟨hnew, parts, hparts, rfl⟩⟩ := mem_ofList_succ.mp hnode
    · cases hbranch
    · have hgroup : isWholeGroupReference reference := Option.isSome_iff_exists.mpr ⟨parts, hparts⟩
      apply ih _ (h.cons hparts hnew) branch hbranch
      apply length_remaining_of_listed hlisted hgroup hnew hdepth

/-! ### Complaints -/

/-- The complaints about references, one after the other, are those about what is left out and
those about the branches below, if that is so of each group. -/
theorem log_references_perm {references : List String} (h : IsPath path)
    (hgroups : ∀ reference ∈ references, isWholeGroupReference reference → reference ∉ path →
      let orientation := (groupOrientation doc reference).resolve outer
      let children := ofList doc depth (reference :: path) orientation reference
      children.log.Perm ((branchesFrom (reference :: path) reference children.value).flatMap
        (Branch.complaints doc))) :
  (references.flatMap fun reference => (ofReference doc depth path outer list reference).log).Perm
    ((references.filter (· ∈ path)).map (.groupInsideItself · list)
      ++ (branchesOf path (references.filterMap fun reference =>
        (ofReference doc depth path outer list reference).value)).flatMap (Branch.complaints doc))
  := by
  induction references with
  | nil => exact .nil
  | cons reference references ih =>
    obtain ⟨hgroup, hgroups⟩ := List.forall_mem_cons.mp hgroups
    have hrest := ih hgroups
    rw [List.flatMap_cons, List.filterMap_cons]
    cases hparts : GroupReference.ofText? reference with
    | none =>
      rw [List.filter_cons_of_neg (by simpa using h.not_mem hparts), ofReference_module hparts]
      exact hrest
    | some parts =>
      by_cases hinside : reference ∈ path
      · rw [List.filter_cons_of_pos (by simpa using hinside), ofReference_inside hparts hinside]
        exact hrest.cons _
      · have hchildren := hgroup (Option.isSome_iff_exists.mpr ⟨parts, hparts⟩) hinside
        rw [List.filter_cons_of_neg (by simpa using hinside), ofReference_group hparts hinside,
          Logged.log_map, Logged.value_map]
        change List.Perm _ (_ ++ (branchesOf path (_ :: _)).flatMap _)
        rw [branchesOf, branches, List.flatMap_append]
        exact (hchildren.append hrest).trans (List.perm_append_comm_assoc _ _ _)

/-- There is one complaint for each reference that is left out on a branch. -/
theorem log_ofList_perm (hdepth : (Placement.remaining doc path).length < depth)
    (h : IsPath path) :
  (ofList doc depth path outer list).log.Perm
    ((branchesFrom path list (ofList doc depth path outer list).value).flatMap
      (Branch.complaints doc))
  := by
  induction depth generalizing path outer list with
  | zero => cases hdepth
  | succ depth ih =>
    rw [log_ofList_succ, branchesFrom, List.flatMap_cons, value_ofList_succ, Branch.complaints]
    apply log_references_perm h
    intro reference hlisted hgroup hnew
    obtain ⟨parts, hparts⟩ := Option.isSome_iff_exists.mp hgroup
    apply ih _ (h.cons hparts hnew)
    apply length_remaining_of_listed hlisted hgroup hnew hdepth

end Node

namespace ModuleTree

/-- The branches of a tree: those of the sections, and those of the groups in them. -/
def branches (tree : ModuleTree) : List Branch :=
  Section.all.flatMap fun list => Node.branchesFrom [] list (tree.nodesOf list)

variable {config : Config} {orientation : Orientation}

theorem mem_branches_resolve {branch : Branch} :
  branch ∈ (resolve config orientation).value.branches
    ↔ ∃ list ∈ Section.all,
      branch ∈ Node.branchesFrom [] list (resolveSection config.document orientation list).value
  := by
  rw [branches, List.mem_flatMap]
  apply exists_congr
  intro list
  apply and_congr_right
  intro hlist
  rw [nodesOf_resolve hlist]

/-- The complaints about a tree are those about its sections, one after the other. -/
theorem log_resolve :
  (resolve config orientation).log
    = Section.all.flatMap fun list => (resolveSection config.document orientation list).log
  := by
  simp [resolve, Section.all]

theorem unfolds_resolve :
  ∀ branch ∈ (resolve config orientation).value.branches, Node.Unfolds config.document branch
  := by
  intro branch hbranch
  obtain ⟨list, -, hbranch⟩ := mem_branches_resolve.mp hbranch
  apply Node.unfolds_ofList (Placement.length_remaining_lt_walkDepth []) .nil branch hbranch

theorem log_resolve_perm :
  (resolve config orientation).log.Perm
    ((resolve config orientation).value.branches.flatMap (Branch.complaints config.document))
  := by
  rw [log_resolve, branches, List.flatMap_assoc]
  apply List.Perm.flatMap_left
  intro list hlist
  rw [nodesOf_resolve hlist]
  apply Node.log_ofList_perm (Placement.length_remaining_lt_walkDepth []) .nil

/-- A tree unfolds the lists of its document.  No branch is inside of a group twice, and on
every branch there stand the nodes of what its list names, in order and as often as it is
named, but for the groups that the branch is inside of; for each of these there is one warning.
To leave them out loses no module: the modules of the tree are what is listed in a section, or
in a group to which whole references to groups lead from a section, and is itself none. -/
theorem resolve_unfolds (config : Config) (orientation : Orientation) :
  let tree := (resolve config orientation).value
  (∀ branch ∈ tree.branches,
      branch.path.Nodup
        ∧ (∀ group ∈ branch.path, isWholeGroupReference group)
        ∧ List.Forall₂ ShownAs
          ((config.moduleList branch.list).filter (· ∉ branch.path)) branch.nodes)
    ∧ (∀ name, name ∈ tree.modules
      ↔ ¬ isWholeGroupReference name
        ∧ Placement.ListedBelow config.document (isWholeGroupReference ·) name)
    ∧ (resolve config orientation).log.Perm
      (tree.branches.flatMap fun branch =>
        ((config.moduleList branch.list).filter (· ∈ branch.path)).map
          (.groupInsideItself · branch.list))
  := by
  intro tree
  constructor
  · intro branch hbranch
    obtain ⟨hpath, hshown⟩ := unfolds_resolve branch hbranch
    exact ⟨hpath.nodup, hpath.whole, hshown⟩
  constructor
  · intro name
    rw [mem_modules_resolve, Placement.reached_iff_listedBelow, and_comm]
  · exact log_resolve_perm

/-- A bar with two groups that list each other. -/
def mutualGroups : Document :=
  .object
    [("modules-left", .array [.string "group/a", .string "group/a"]),
     ("modules-right", .array [.string "group/b"]),
     ("group/a", .object [("modules", .array [.string "x", .string "group/b"])]),
     ("group/b", .object [("modules", .array [.string "group/a", .string "y"])])]

/-- Inside the first group, the second one shows its module only. -/
theorem resolve_unfolds_mutualGroups :
  let config := Config.ofDocument mutualGroups
  let tree := (resolve config .horizontal).value
  ∃ branch ∈ tree.branches,
    branch.path = ["group/b", "group/a"] ∧ branch.list = "group/b" ∧ branch.path.Nodup
      ∧ List.Forall₂ ShownAs ["y"] branch.nodes
  := by
  intro config tree
  have hbranch : ∃ branch ∈ tree.branches,
      branch.path = ["group/b", "group/a"] ∧ branch.list = "group/b" := by decide +kernel
  obtain ⟨branch, hbranch, hpath, hlist⟩ := hbranch
  obtain ⟨hnodup, -, hshown⟩ := (resolve_unfolds config .horizontal).1 branch hbranch
  have hkept : (config.moduleList "group/b").filter (· ∉ ["group/b", "group/a"]) = ["y"] := by
    decide
  rw [hlist, hpath, hkept] at hshown
  use branch, hbranch, hpath, hlist, hnodup

end ModuleTree

end StatusBar
