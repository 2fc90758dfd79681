import StatusBar.Warning

/-!
# Notices

What is noted while a configuration is loaded and shown: warnings and the stages of the
work, each with the level it is shown at.
-/

namespace StatusBar

/-- How urgent a notice is, from the least. -/
inductive Level where
  | trace
  | debug
  | info
  | warn
  | error
  deriving DecidableEq, Repr

namespace Level

/-- The urgency as a number. -/
def rank : Level → Nat
  | trace => 0
  | debug => 1
  | info => 2
  | warn => 3
  | error => 4

/-- The level as log lines show it. -/
def name : Level → String
  | trace => "TRACE"
  | debug => "DEBUG"
  | info => "INFO"
  | warn => "WARN"
  | error => "ERROR"

/-- The level of that name, in letters of any case. -/
def ofName? (name : String) : Option Level :=
  match name.toLower with
  | "trace" => some trace
  | "debug" => some debug
  | "info" => some info
  | "warn" => some warn
  | "error" => some error
  | _ => none

end Level

/-- What happens while a configuration is loaded and shown. -/
inductive Notice where
  | unknownLevel (name : String)
  | loading (path : Path)
  | included (path : Path)
  | warning (cause : Warning)
  | loaded (path : Path) (bars : Nat)
  | noOutputGiven
  deriving DecidableEq, Repr

namespace Notice

/-- The level of a notice. -/
def level : Notice → Level
  | unknownLevel _ => .warn
  | loading _ => .info
  | included _ => .debug
  | warning _ => .warn
  | loaded _ _ => .info
  | noOutputGiven => .warn

/-- The words for a notice. -/
def message : Notice → String
  | unknownLevel name => Warning.withFields "Unknown log level, using info" [("level", name)]
  | loading path => Warning.withFields "Loading config" [("path", path.text)]
  | included path => Warning.withFields "Included config" [("path", path.text)]
  | warning w => w.message
  | loaded path bars =>
    Warning.withFields "Config loaded" [("path", path.text), ("bars", toString bars)]
  | noOutputGiven => "No --output given, nothing to evaluate"

/-- The warning that a notice holds, if it holds one. -/
def warning? : Notice → Option Warning
  | warning w => some w
  | _ => none

end Notice

end StatusBar
