import StatusBar.LoadError
import StatusBar.Margins
import StatusBar.Position

/-!
# Warnings

What a bar complains about while it goes on.
-/

namespace StatusBar

/-- A complaint that stops nothing. -/
inductive Warning where
  | invalidMargins (text : String) (error : NumeralError)
  | unknownPosition (name : String)
  | barNotObject (index : Nat)
  | rootNotBars
  | includeTooDeep (depth limit : Nat)
  | includeCycle (path : Path)
  | includeFailed (path : Path) (error : LoadError)
  | includeNotObject (path : Path)
  | groupInsideItself (group list : String)
  | invalidMode (mode : String)
  | unknownMode (mode output : String)
  | orientationKept (current requested : Position)
  | noBarOnOutput (output : String)
  | widthTooSmall (requested required : UInt32)
  | heightTooSmall (requested required : UInt32)
  deriving DecidableEq, Repr

namespace Warning

/-- A message with its fields. -/
def withFields (message : String) (fields : List (String × String)) : String :=
  fields.foldl (fun text field => text ++ " " ++ field.1 ++ "=" ++ field.2) message

/-- The words for a size that the modules do not fit into. -/
def sizeMessage (side : String) (requested required : UInt32) : String :=
  withFields
    ("Requested " ++ side ++ " is less than the minimum " ++ side ++ " required by the modules")
    [("requested", toString requested.toNat), ("required", toString required.toNat)]

/-- The words for a warning. -/
def message : Warning → String
  | invalidMargins text error =>
    withFields "Invalid margins" [("margin", text), ("error", error.message)]
  | unknownPosition name =>
    withFields "Unknown bar position, using the default" [("position", name)]
  | barNotObject index =>
    withFields "Ignoring bar config that is not an object" [("index", toString index)]
  | rootNotBars => "Config root is neither an object nor an array"
  | includeTooDeep depth limit =>
    withFields "Include depth exceeded, ignoring further includes"
      [("depth", toString depth), ("max", toString limit)]
  | includeCycle path => withFields "Include cycle, skipping" [("path", path.text)]
  | includeFailed path error =>
    withFields "Failed to include config" [("path", path.text), ("error", error.message)]
  | includeNotObject path =>
    withFields "Included config is not an object, skipping" [("path", path.text)]
  | groupInsideItself group list =>
    withFields "Group includes itself, skipping" [("group", group), ("parent", list)]
  | invalidMode mode => withFields "Invalid mode" [("mode", mode)]
  | unknownMode mode output =>
    withFields "Unknown mode requested" [("mode", mode), ("output", output)]
  | orientationKept current requested =>
    withFields "Invalid position update, refusing to change bar orientation"
      [("from", current.name), ("to", requested.name)]
  | noBarOnOutput output =>
    withFields "Configure event for an output without a bar" [("output", output)]
  | widthTooSmall requested required => sizeMessage "width" requested required
  | heightTooSmall requested required => sizeMessage "height" requested required

end Warning

end StatusBar
