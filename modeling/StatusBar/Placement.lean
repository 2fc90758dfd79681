import StatusBar.Group

/-!
# Placement

Which references a bar's document places on the bar.  `moduleList` gives what a section or
a group lists; `placed` walks the three sections and enters every group the first time it
is met, so that groups that include each other come to an end.  `isPlaced` walks in the
same way, but only until the reference it looks for is met.

A walk goes down at most one list for every group reference of the document, and once
more; `walkDepth` counts them.
-/

namespace StatusBar

namespace Section

/-- What the name of every section starts with. -/
def start : String := "modules-"

def left : String := "modules-left"

def center : String := "modules-center"

def right : String := "modules-right"

/-- The sections of a bar, in order. -/
def all : List String := [left, center, right]

end Section

/-- The references that a section or a group of a document lists. -/
def moduleList (doc : Document) (reference : String) : List String :=
  if Text.beginsWith Section.start reference then
    (doc.get reference).texts
  else if isGroupReference reference then
    ((doc.get reference).get "modules").texts
  else
    []

namespace Placement

/-- The names of a document's members. -/
def memberNames : Document → List String
  | .object members => members.map (·.1)
  | _ => []

/-- All references that occur in the lists of a document. -/
def references (doc : Document) : List String :=
  (memberNames doc).flatMap (moduleList doc)

/-- The different group references that occur in the lists of a document. -/
def groupReferences (doc : Document) : List String :=
  ((references doc).filter isGroupReference).eraseDups

/-- How many lists a walk may be inside of. -/
def walkDepth (doc : Document) : Nat :=
  (groupReferences doc).length + 1

/-- What a walk has met so far. -/
structure Walk where
  /-- The groups entered, latest first. -/
  entered : List String := []
  /-- The references met, latest first. -/
  met : List String := []
  deriving DecidableEq, Repr

/-- Walk a list, at most `depth` lists deep: note every reference, and enter a group when
it is met for the first time. -/
def walk (doc : Document) : (depth : Nat) → (list : String) → Walk → Walk
  | 0, _, state => state
  | depth + 1, list, state =>
    (moduleList doc list).foldl
      (fun state reference =>
        let noted := { state with met := reference :: state.met }
        if isGroupReference reference && !state.entered.contains reference then
          walk doc depth reference { noted with entered := reference :: noted.entered }
        else
          noted)
      state

/-- All references placed on a bar, in the order in which the walk meets them. -/
def placed (doc : Document) : List String :=
  (Section.all.foldl (fun state list => walk doc (walkDepth doc) list state) {}).met.reverse

/-- The modules placed on a bar, in the order in which the walk meets them. -/
def placedModules (doc : Document) : List String :=
  (placed doc).filter fun reference => !isGroupReference reference

/-- Look for a wanted reference in a list, at most `depth` lists deep, and enter a group
when it is met for the first time.  Gives the groups entered, latest first, and none as
soon as a wanted reference is met. -/
def seek (doc : Document) (wanted : String → Bool) :
    (depth : Nat) → (list : String) → (entered : List String) → Option (List String)
  | 0, _, entered => some entered
  | depth + 1, list, entered =>
    (moduleList doc list).foldlM
      (fun entered reference =>
        if wanted reference then
          none
        else if isGroupReference reference && !entered.contains reference then
          seek doc wanted depth reference (reference :: entered)
        else
          some entered)
      entered

/-- Whether a listed name is a reference, with a style class or without. -/
def isListedAs (reference name : String) : Bool :=
  name = reference || bareName name = reference

/-- Whether a reference is placed on a bar, with a style class or without.  The sections
are searched in order, until it is found. -/
def isPlaced (doc : Document) (reference : String) : Bool :=
  (Section.all.foldlM
    (fun entered list => seek doc (isListedAs reference) (walkDepth doc) list entered) []).isNone

end Placement

end StatusBar
