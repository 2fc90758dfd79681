import StatusBar.Config

/-!
# Module trees

The modules of a bar as they are laid out: three sections of modules and groups, each
group with its direction and its own modules.  A group that is listed inside itself is left
out there, with a warning.
-/

namespace StatusBar

/-- A module or a group of a bar. -/
inductive Node where
  | module (name : String)
  | group (reference : String) (parts : GroupReference) (orientation : Orientation)
    (children : List Node)
  deriving Repr, Inhabited

namespace Node

mutual

/-- The modules of a node, depth first. -/
def modules : Node → List String
  | .module name => [name]
  | .group _ _ _ children => modulesOf children

/-- The modules of nodes, depth first. -/
def modulesOf : List Node → List String
  | [] => []
  | node :: nodes => node.modules ++ modulesOf nodes

end

mutual

/-- The lines that show a node, `depth` steps to the right. -/
def lines (depth : Nat) : Node → List String
  | .module name => [indent depth name]
  | .group reference _ orientation children =>
    indent depth (reference ++ " [" ++ orientation.name ++ "]") :: linesOf (depth + 1) children
where
  /-- A line moved to the right. -/
  indent (depth : Nat) (line : String) : String :=
    String.ofList (List.replicate (2 * depth) ' ') ++ line

/-- The lines that show nodes. -/
def linesOf (depth : Nat) : List Node → List String
  | [] => []
  | node :: nodes => node.lines depth ++ linesOf depth nodes

end

end Node

/-- The direction that a document gives to a group. -/
def groupOrientation (doc : Document) (reference : String) : GroupOrientation :=
  Decode.decode ((doc.get reference).get "orientation")

/-- The nodes of a list, at most `depth` lists deep, inside the groups of `path` and in
surroundings that run in the direction `outer`. -/
def Node.ofList (doc : Document) : (depth : Nat) → (path : List String) →
    (outer : Orientation) → (list : String) → Logged Warning (List Node)
  | 0, _, _, _ => pure []
  | depth + 1, path, outer, list => do
    let nodes ← Logged.each
      (fun reference =>
        match GroupReference.ofText? reference with
        | none => pure (some (Node.module reference))
        | some parts =>
          if path.contains reference then
            Logged.withNotes [.groupInsideItself reference list] none
          else do
            let orientation := (groupOrientation doc reference).resolve outer
            let children ← Node.ofList doc depth (reference :: path) orientation reference
            return some (Node.group reference parts orientation children))
      (moduleList doc list)
    return nodes.filterMap id

/-- The nodes of a bar's sections. -/
structure ModuleTree where
  left : List Node
  center : List Node
  right : List Node
  deriving Repr, Inhabited

namespace ModuleTree

/-- The nodes of one section of a document. -/
def resolveSection (doc : Document) (orientation : Orientation) (list : String) :
    Logged Warning (List Node) :=
  Node.ofList doc (Placement.walkDepth doc) [] orientation list

/-- The tree of a bar that runs in a direction. -/
def resolve (config : Config) (orientation : Orientation) : Logged Warning ModuleTree := do
  let left ← resolveSection config.document orientation Section.left
  let center ← resolveSection config.document orientation Section.center
  let right ← resolveSection config.document orientation Section.right
  return ⟨left, center, right⟩

/-- The nodes of a section by its name; no other list has any. -/
def nodesOf (tree : ModuleTree) (list : String) : List Node :=
  if list = Section.left then tree.left
  else if list = Section.center then tree.center
  else if list = Section.right then tree.right
  else []

/-- The modules of a tree, section by section and depth first. -/
def modules (tree : ModuleTree) : List String :=
  Section.all.flatMap fun list => Node.modulesOf (tree.nodesOf list)

/-- The lines that show a tree. -/
def lines (tree : ModuleTree) : List String :=
  Section.all.flatMap fun list => (list ++ ":") :: Node.linesOf 1 (tree.nodesOf list)

/-- Lines, each with an end. -/
def text (tree : ModuleTree) : String :=
  String.join (tree.lines.map (· ++ "\n"))

end ModuleTree

end StatusBar
