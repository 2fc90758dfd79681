import StatusBar.Notice
import StatusBar.Text.Split

/-!
# Arguments

What the arguments of the command line ask for.  Options come before the command.  The
value of an option stands in the same argument, possibly after `=`, or is the next
argument unless that looks like an option.  Only `--output` may be given more than once.
-/

namespace StatusBar.CommandLine

/-- What to show of a configuration. -/
inductive Command where
  | check
  | modules
  | outputs
  | modes
  deriving DecidableEq, Repr

/-- The command of that name. -/
def Command.ofName? (name : String) : Option Command :=
  match name with
  | "check" => some check
  | "modules" => some modules
  | "outputs" => some outputs
  | "modes" => some modes
  | _ => none

/-- What the options say. -/
structure Options where
  config : Option Path := none
  logLevel : Option String := none
  outputs : List String := []
  json : Bool := false
  deriving DecidableEq, Repr

/-- What the arguments ask for. -/
inductive Invocation where
  | run (options : Options) (command : Command)
  | help
  | version
  | usageError
  deriving DecidableEq, Repr

/-- The options that have a value. -/
inductive ValueOption where
  | config
  | logLevel
  | output
  deriving DecidableEq, Repr

/-- One argument, by its form. -/
inductive Argument where
  | valueOption (option : ValueOption) (value : Option String)
  | json
  | help
  | version
  /-- Any other argument that looks like an option. -/
  | unknownOption
  | word (text : String)
  deriving DecidableEq, Repr

/-- An option by its long name. -/
def Argument.ofLong (name : String) (value : Option String) : Argument :=
  match name, value with
  | "config", value => .valueOption .config value
  | "log-level", value => .valueOption .logLevel value
  | "output", value => .valueOption .output value
  | "json", none => .json
  | "help", none => .help
  | "version", none => .version
  | _, _ => .unknownOption

/-- The value that follows the letter of an option in the same argument. -/
def attachedValue : List Char → Option String
  | [] => none
  | '=' :: rest => some (String.ofList rest)
  | rest => some (String.ofList rest)

/-- An option by its letter. -/
def Argument.ofShort (letter : Char) (rest : List Char) : Argument :=
  match letter with
  | 'c' => .valueOption .config (attachedValue rest)
  | 'l' => .valueOption .logLevel (attachedValue rest)
  | 'o' => .valueOption .output (attachedValue rest)
  | 'h' => .help
  | 'V' => .version
  | _ => .unknownOption

/-- An argument by its form.  A single `-` is a word. -/
def Argument.ofText (text : String) : Argument :=
  match text.toList with
  | '-' :: '-' :: rest =>
    let (name, value) := Text.cut '=' (String.ofList rest)
    .ofLong name value
  | '-' :: letter :: rest => .ofShort letter rest
  | _ => .word text

/-- The options with one more value, unless it may not be given. -/
def Options.set? (options : Options) (option : ValueOption) (value : String) : Option Options :=
  match option with
  | .config =>
    if options.config.isSome ∨ value = "" then none
    else some { options with config := some ⟨value⟩ }
  | .logLevel =>
    if options.logLevel.isSome then none else some { options with logLevel := some value }
  | .output => some { options with outputs := options.outputs ++ [value] }

/-- What the arguments after a command ask for: nothing but help may follow. -/
def afterCommand (options : Options) (command : Command) : List String → Invocation
  | [] => .run options command
  | ["--"] => .run options command
  | argument :: _ => if Argument.ofText argument = .help then .help else .usageError

/-- What the arguments after `help` ask for: one command may be named. -/
def afterHelp : List String → Invocation
  | [] => .help
  | [name] => if (Command.ofName? name).isSome ∨ name = "help" then .help else .usageError
  | _ => .usageError

/-- What arguments ask for, after the given options. -/
def invocationAfter (options : Options) : List String → Invocation
  | [] => .usageError
  | argument :: rest =>
    match Argument.ofText argument with
    | .json =>
      if options.json then .usageError else invocationAfter { options with json := true } rest
    | .help => .help
    | .version => .version
    | .unknownOption => .usageError
    | .word text =>
      match Command.ofName? text with
      | some command => afterCommand options command rest
      | none => if text = "help" then afterHelp rest else .usageError
    | .valueOption option (some value) =>
      match options.set? option value with
      | some options => invocationAfter options rest
      | none => .usageError
    | .valueOption option none =>
      match rest with
      | [] => .usageError
      | value :: rest =>
        match Argument.ofText value, options.set? option value with
        | .word _, some options => invocationAfter options rest
        | _, _ => .usageError

/-- What arguments ask for. -/
def invocation (arguments : List String) : Invocation :=
  invocationAfter {} arguments

end StatusBar.CommandLine
