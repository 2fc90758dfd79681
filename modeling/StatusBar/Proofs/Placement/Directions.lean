import Mathlib.Data.List.Forall2
import Mathlib.Logic.Function.Iterate
import StatusBar.Proofs.Placement.Tree

/-!
# Directions of groups

The direction of a group in a tree depends on nothing but its path: the group itself, the groups
that it is inside of, and the bar around them.  The innermost group of the path that is fixed to a
direction gives it, and every orthogonal group further inside turns it; if none is fixed, it is
the bar that gives it.  So the trees of a horizontal and of a vertical bar are the same but for
the directions of the groups on whose path no group is fixed, and these are opposite.
-/

namespace StatusBar

/-! ### What a document says about a group -/

/-- A group is fixed to a direction. -/
def FixedTo (doc : Document) (group : String) (direction : Orientation) : Prop :=
  ((doc.get group).get "orientation").text? = some direction.name

/-- A group is fixed to one of the directions. -/
def IsFixed (doc : Document) (group : String) : Prop :=
  FixedTo doc group .horizontal ∨ FixedTo doc group .vertical

/-- Whether a group runs across its surroundings, whichever direction these have. -/
def isOrthogonal (doc : Document) (group : String) : Bool :=
  ((doc.get group).get "orientation").text? = some "orthogonal"

instance (doc : Document) (group : String) (direction : Orientation) :
    Decidable (FixedTo doc group direction) :=
  inferInstanceAs (Decidable (_ = _))

instance (doc : Document) (group : String) : Decidable (IsFixed doc group) :=
  inferInstanceAs (Decidable (_ ∨ _))

/-- The direction of the innermost group of a path on a bar of some direction. -/
def directionAlong (doc : Document) (bar : Orientation) (path : List String) : Orientation :=
  path.foldr (fun group outer => (groupOrientation doc group).resolve outer) bar

variable {doc : Document} {group : String} {path : List String}

theorem groupOrientation_eq_read :
  groupOrientation doc group
    = (((doc.get group).get "orientation").text?.bind GroupOrientation.ofName?).getD .inherit
  := rfl

theorem IsFixed.exists_fixedTo (h : IsFixed doc group) :
  ∃ direction, FixedTo doc group direction
  := by
  rcases h with hfixed | hfixed
  · use .horizontal
  · use .vertical

/-- The surroundings do not matter to a group that is fixed. -/
theorem resolve_of_fixedTo {direction : Orientation} (h : FixedTo doc group direction)
    (outer : Orientation) :
  (groupOrientation doc group).resolve outer = direction
  := by
  rw [groupOrientation_eq_read, h]
  cases direction with
  | horizontal => rfl
  | vertical => rfl

/-- Any other group follows its surroundings or turns them. -/
theorem resolve_of_not_isFixed (h : ¬ IsFixed doc group) (outer : Orientation) :
  (groupOrientation doc group).resolve outer
    = if isOrthogonal doc group then outer.flipped else outer
  := by
  rw [IsFixed, FixedTo, FixedTo] at h
  rw [groupOrientation_eq_read, isOrthogonal]
  cases hname : ((doc.get group).get "orientation").text? with
  | none => rfl
  | some name =>
    rw [hname] at h
    rw [Option.bind_some, GroupOrientation.ofName?.eq_def]
    split
    case h_1 => rfl
    case h_2 => cases h (.inl rfl)
    case h_3 => cases h (.inr rfl)
    case h_4 => rfl
    case h_5 hother =>
      rw [if_neg (by simpa using hother)]
      rfl

/-- Along groups of which none is fixed, the direction is turned once for each that is
orthogonal. -/
theorem directionAlong_append (inner outer : List String) (bar : Orientation)
    (h : ∀ group ∈ inner, ¬ IsFixed doc group) :
  directionAlong doc bar (inner ++ outer)
    = Orientation.flipped^[inner.countP (isOrthogonal doc)] (directionAlong doc bar outer)
  := by
  induction inner with
  | nil => rfl
  | cons group inner ih =>
    obtain ⟨hgroup, hinner⟩ := List.forall_mem_cons.mp h
    have hresolve : directionAlong doc bar (group :: (inner ++ outer))
        = (groupOrientation doc group).resolve (directionAlong doc bar (inner ++ outer)) := rfl
    rw [List.cons_append, hresolve, resolve_of_not_isFixed hgroup, ih hinner, List.countP_cons]
    split
    case isTrue => rw [Function.iterate_succ_apply']
    case isFalse => rfl

/-- Where no group is fixed, the bar gives the direction. -/
theorem directionAlong_of_not_isFixed (bar : Orientation)
    (h : ∀ group ∈ path, ¬ IsFixed doc group) :
  directionAlong doc bar path = Orientation.flipped^[path.countP (isOrthogonal doc)] bar
  := by
  have happend := directionAlong_append path [] bar h
  rwa [List.append_nil] at happend

/-- Else the innermost group does that is fixed. -/
theorem directionAlong_of_fixedTo {inner outer : List String} {direction : Orientation}
    (bar : Orientation) (h : ∀ other ∈ inner, ¬ IsFixed doc other)
    (hfixed : FixedTo doc group direction) :
  directionAlong doc bar (inner ++ group :: outer)
    = Orientation.flipped^[inner.countP (isOrthogonal doc)] direction
  := by
  rw [directionAlong_append inner _ bar h]
  exact congrArg _ (resolve_of_fixedTo hfixed _)

/-- A path with a fixed group has an innermost one. -/
theorem exists_innermost (h : ∃ group ∈ path, IsFixed doc group) :
  ∃ inner group outer, path = inner ++ group :: outer ∧ (∀ other ∈ inner, ¬ IsFixed doc other)
    ∧ IsFixed doc group
  := by
  have hfound : (path.find? fun group => IsFixed doc group).isSome := by
    rw [List.find?_isSome]
    simpa using h
  obtain ⟨group, hfind⟩ := Option.isSome_iff_exists.mp hfound
  obtain ⟨hfixed, inner, outer, hpath, hinner⟩ := List.find?_eq_some_iff_append.mp hfind
  use inner, group, outer, hpath
  constructor
  · intro other hother
    simpa using hinner other hother
  · exact of_decide_eq_true hfixed

/-! ### Groups of a tree -/

/-- A group where it stands in a tree. -/
structure Seat where
  /-- The group and those that it is inside of, the innermost first. -/
  path : List String
  orientation : Orientation
  deriving DecidableEq, Repr

namespace Node

mutual

/-- The groups of a node that is inside of some groups, depth first. -/
def seats (path : List String) : Node → List Seat
  | .module _ => []
  | .group reference _ orientation children =>
    ⟨reference :: path, orientation⟩ :: seatsOf (reference :: path) children

/-- The groups of nodes that are inside of some groups, depth first. -/
def seatsOf (path : List String) : List Node → List Seat
  | [] => []
  | node :: nodes => node.seats path ++ seatsOf path nodes

end

mutual

/-- A node without the directions of its groups: all of them are made horizontal. -/
def outline : Node → Node
  | .module name => .module name
  | .group reference parts _ children => .group reference parts .horizontal (outlineOf children)

/-- Nodes without the directions of their groups. -/
def outlineOf : List Node → List Node
  | [] => []
  | node :: nodes => node.outline :: outlineOf nodes

end

theorem outlineOf_eq_map (nodes : List Node) :
  outlineOf nodes = nodes.map outline
  := by
  induction nodes with
  | nil => rfl
  | cons node nodes ih => rw [outlineOf, ih, List.map_cons]

theorem mem_seatsOf {nodes : List Node} {seat : Seat} :
  seat ∈ seatsOf path nodes ↔ ∃ node ∈ nodes, seat ∈ node.seats path
  := by
  induction nodes with
  | nil => simp [seatsOf]
  | cons node nodes ih => simp [seatsOf, ih]

mutual

/-- The outline of a node has the same groups, in the same places. -/
theorem paths_outline (path : List String) :
  ∀ node : Node, (node.outline.seats path).map Seat.path = (node.seats path).map Seat.path
  | .module _ => rfl
  | .group reference _ _ children => by
    rw [outline, seats, seats, List.map_cons, List.map_cons,
      paths_outlineOf (reference :: path) children]

/-- The outline of nodes has the same groups, in the same places. -/
theorem paths_outlineOf (path : List String) :
  ∀ nodes : List Node,
    (seatsOf path (outlineOf nodes)).map Seat.path = (seatsOf path nodes).map Seat.path
  | [] => rfl
  | node :: nodes => by
    rw [outlineOf, seatsOf, seatsOf, List.map_append, List.map_append, paths_outline path node,
      paths_outlineOf path nodes]

end

variable {depth : Nat} {list : String}

/-- The groups of a list have the directions that their paths give. -/
theorem orientation_of_mem_seatsOf {bar : Orientation} {seat : Seat}
    (h : seat ∈ seatsOf path (ofList doc depth path (directionAlong doc bar path) list).value) :
  seat.orientation = directionAlong doc bar seat.path
  := by
  induction depth generalizing path list with
  | zero => cases h
  | succ depth ih =>
    obtain ⟨node, hnode, hseat⟩ := mem_seatsOf.mp h
    obtain ⟨reference, -, ⟨-, rfl⟩ | ⟨-, parts, -, rfl⟩⟩ := mem_ofList_succ.mp hnode
    · cases hseat
    · -- The direction of the group is the one along the path of what it lists.
      rcases List.mem_cons.mp hseat with rfl | hbelow
      · rfl
      · exact ih hbelow

/-- The direction around a list matters to the directions of groups alone, and to no complaint. -/
theorem alike_ofList (outer outer' : Orientation) :
  outlineOf (ofList doc depth path outer list).value
      = outlineOf (ofList doc depth path outer' list).value
    ∧ (ofList doc depth path outer list).log = (ofList doc depth path outer' list).log
  := by
  induction depth generalizing path outer outer' list with
  | zero => exact ⟨rfl, rfl⟩
  | succ depth ih =>
    have hreference : ∀ reference,
        (ofReference doc depth path outer list reference).value.map outline
            = (ofReference doc depth path outer' list reference).value.map outline
          ∧ (ofReference doc depth path outer list reference).log
            = (ofReference doc depth path outer' list reference).log := by
      intro reference
      cases hparts : GroupReference.ofText? reference with
      | none =>
        rw [ofReference_module hparts, ofReference_module hparts]
        exact ⟨rfl, rfl⟩
      | some parts =>
        by_cases hinside : reference ∈ path
        · rw [ofReference_inside hparts hinside, ofReference_inside hparts hinside]
          exact ⟨rfl, rfl⟩
        · rw [ofReference_group hparts hinside, ofReference_group hparts hinside]
          obtain ⟨houtline, hlog⟩ := @ih (reference :: path) reference
            ((groupOrientation doc reference).resolve outer)
            ((groupOrientation doc reference).resolve outer')
          simp only [Logged.value_map, Logged.log_map, Option.map_some, outline, houtline, hlog,
            and_self]
    constructor
    · rw [value_ofList_succ, value_ofList_succ, outlineOf_eq_map, outlineOf_eq_map,
        List.map_filterMap, List.map_filterMap]
      apply List.filterMap_congr
      exact fun reference _ => (hreference reference).1
    · rw [log_ofList_succ, log_ofList_succ]
      apply List.flatMap_congr
      exact fun reference _ => (hreference reference).2

end Node

namespace ModuleTree

/-- The groups of a tree, section by section and depth first. -/
def seats (tree : ModuleTree) : List Seat :=
  Section.all.flatMap fun list => Node.seatsOf [] (tree.nodesOf list)

/-- A tree without the directions of its groups. -/
def outline (tree : ModuleTree) : ModuleTree :=
  ⟨Node.outlineOf tree.left, Node.outlineOf tree.center, Node.outlineOf tree.right⟩

variable {config : Config} {bar : Orientation}

theorem orientation_of_mem_seats {seat : Seat} (h : seat ∈ (resolve config bar).value.seats) :
  seat.orientation = directionAlong config.document bar seat.path
  := by
  obtain ⟨list, hlist, hseat⟩ := List.mem_flatMap.mp h
  rw [nodesOf_resolve hlist] at hseat
  exact Node.orientation_of_mem_seatsOf hseat

theorem alike_resolve (bar bar' : Orientation) :
  (resolve config bar).value.outline = (resolve config bar').value.outline
    ∧ (resolve config bar).log = (resolve config bar').log
  := by
  have halike : ∀ list,
      Node.outlineOf (resolveSection config.document bar list).value
          = Node.outlineOf (resolveSection config.document bar' list).value
        ∧ (resolveSection config.document bar list).log
          = (resolveSection config.document bar' list).log :=
    fun list => Node.alike_ofList bar bar'
  constructor
  · rw [outline, outline, mk.injEq]
    exact ⟨(halike _).1, (halike _).1, (halike _).1⟩
  · simp only [resolve, Logged.log_bind, Logged.log_pure, (halike _).2]

theorem nodesOf_outline (tree : ModuleTree) (list : String) :
  tree.outline.nodesOf list = Node.outlineOf (tree.nodesOf list)
  := by
  rw [nodesOf, nodesOf]
  repeat' split
  all_goals rfl

/-- The outline of a tree has the same groups, in the same places. -/
theorem paths_outline (tree : ModuleTree) :
  tree.outline.seats.map Seat.path = tree.seats.map Seat.path
  := by
  rw [seats, seats, List.map_flatMap, List.map_flatMap]
  apply List.flatMap_congr
  intro list _
  rw [nodesOf_outline, Node.paths_outlineOf]

/-! ### Two bars -/

/-- A group as it stands in the tree of a horizontal bar, and in that of a vertical one: it
differs just in case no group of its path is fixed, and is opposite then.  Otherwise it runs as
the innermost group that is fixed, turned once for each orthogonal group further inside. -/
structure Turns (doc : Document) (across down : Seat) : Prop where
  path : across.path = down.path
  differs : across.orientation ≠ down.orientation ↔ ∀ group ∈ across.path, ¬ IsFixed doc group
  opposite : across.orientation ≠ down.orientation →
    down.orientation = across.orientation.flipped
  innermost : across.orientation = down.orientation →
    ∃ inner group outer direction, across.path = inner ++ group :: outer
      ∧ (∀ other ∈ inner, ¬ IsFixed doc other) ∧ FixedTo doc group direction
      ∧ across.orientation = Orientation.flipped^[inner.countP (isOrthogonal doc)] direction

/-- Without a fixed group the bars give opposite directions. -/
theorem turns_of_not_isFixed {doc : Document} {path : List String}
    (h : ∀ group ∈ path, ¬ IsFixed doc group) :
  Turns doc ⟨path, directionAlong doc .horizontal path⟩ ⟨path, directionAlong doc .vertical path⟩
  := by
  have hopposite : directionAlong doc .vertical path
      = (directionAlong doc .horizontal path).flipped := by
    rw [directionAlong_of_not_isFixed _ h, directionAlong_of_not_isFixed _ h,
      ← Function.iterate_succ_apply' Orientation.flipped, Function.iterate_succ_apply]
    rfl
  have hdiffers : directionAlong doc .horizontal path ≠ directionAlong doc .vertical path := by
    rw [hopposite]
    exact (Orientation.flipped_ne _).symm
  constructor
  case path => rfl
  case differs => exact iff_of_true hdiffers h
  case opposite => exact fun _ => hopposite
  case innermost => exact fun hsame => absurd hsame hdiffers

/-- A fixed group shields what is inside of it from the bar. -/
theorem turns_of_isFixed {doc : Document} {path : List String}
    (h : ∃ group ∈ path, IsFixed doc group) :
  Turns doc ⟨path, directionAlong doc .horizontal path⟩ ⟨path, directionAlong doc .vertical path⟩
  := by
  obtain ⟨inner, group, outer, rfl, hinner, hfixed⟩ := exists_innermost h
  obtain ⟨direction, hdirection⟩ := hfixed.exists_fixedTo
  have halong : ∀ bar, directionAlong doc bar (inner ++ group :: outer)
      = Orientation.flipped^[inner.countP (isOrthogonal doc)] direction :=
    fun bar => directionAlong_of_fixedTo bar hinner hdirection
  have hsame : directionAlong doc .horizontal (inner ++ group :: outer)
      = directionAlong doc .vertical (inner ++ group :: outer) := by
    rw [halong, halong]
  constructor
  case path => rfl
  case differs =>
    apply iff_of_false (not_not_intro hsame)
    intro hnone
    exact hnone group (by simp) hfixed
  case opposite => exact fun hdiffers => absurd hsame hdiffers
  case innermost =>
    intro _
    use inner, group, outer, direction, rfl, hinner, hdirection
    exact halong _

theorem turns_directionAlong (doc : Document) (path : List String) :
  Turns doc ⟨path, directionAlong doc .horizontal path⟩ ⟨path, directionAlong doc .vertical path⟩
  := by
  by_cases h : ∃ group ∈ path, IsFixed doc group
  · exact turns_of_isFixed h
  · apply turns_of_not_isFixed
    simpa using h

/-- Groups with the same paths are related one by one, if any two with the same path are. -/
theorem forall₂_of_paths {related : Seat → Seat → Prop} {seats seats' : List Seat}
    (hpaths : seats.map Seat.path = seats'.map Seat.path)
    (h : ∀ seat ∈ seats, ∀ seat' ∈ seats', seat.path = seat'.path → related seat seat') :
  List.Forall₂ related seats seats'
  := by
  rw [← List.forall₂_eq_eq_eq, List.forall₂_map_left_iff, List.forall₂_map_right_iff] at hpaths
  induction hpaths with
  | nil => exact .nil
  | cons hpath _ ih =>
    constructor
    · exact h _ List.mem_cons_self _ List.mem_cons_self hpath
    · apply ih
      exact fun seat hseat seat' hseat' => h seat (.tail _ hseat) seat' (.tail _ hseat')

/-- The trees of a horizontal and of a vertical bar are the same but for the directions of their
groups, with the same complaints about them.  A group has different directions just in case
neither it nor any group that it is inside of is fixed, and they are opposite then; otherwise it
has in both the direction of the innermost of these that is fixed, turned once for each orthogonal
group from there down to itself. -/
theorem directions_resolve (config : Config) :
  let across := resolve config .horizontal
  let down := resolve config .vertical
  across.log = down.log
    ∧ across.value.outline = down.value.outline
    ∧ List.Forall₂ (Turns config.document) across.value.seats down.value.seats
  := by
  intro across down
  obtain ⟨houtline, hlog⟩ := @alike_resolve config .horizontal .vertical
  use hlog, houtline
  apply forall₂_of_paths
  · rw [← paths_outline, houtline, paths_outline]
  · rintro ⟨path, orientation⟩ hseat ⟨path', orientation'⟩ hseat' hpath
    obtain rfl : path = path' := hpath
    obtain rfl : orientation = directionAlong config.document .horizontal path :=
      orientation_of_mem_seats hseat
    obtain rfl : orientation' = directionAlong config.document .vertical path :=
      orientation_of_mem_seats hseat'
    exact turns_directionAlong config.document path

/-- A bar with a group that turns another one, which is fixed on the left only. -/
def turningGroups : Document :=
  .object
    [("modules-left", .array [.string "group/fixed"]),
     ("modules-right", .array [.string "group/turned"]),
     ("group/fixed", .object
       [("orientation", .string "vertical"), ("modules", .array [.string "group/turned"])]),
     ("group/turned", .object
       [("orientation", .string "orthogonal"), ("modules", .array [.string "group/inside"])]),
     ("group/inside", .object [("modules", .array [.string "x", .string "group/turned"])])]

example :
    let config := Config.ofDocument turningGroups
    let across := (resolve config .horizontal).value.seats
    let down := (resolve config .vertical).value.seats
    across.map Seat.orientation
        = [.vertical, .horizontal, .horizontal, .vertical, .vertical]
      ∧ down.map Seat.orientation
        = [.vertical, .horizontal, .horizontal, .horizontal, .horizontal] := by
  decide +kernel

end ModuleTree

end StatusBar
