import StatusBar.CommandLine.Report

/-!
# Running commands

A whole run of the command line: the exit code, what is printed, what is logged, and the
error that ends it.
-/

namespace StatusBar.CommandLine

/-- The name and version of the program, as it tells them. -/
def versionText : String := "wlbar 0.1.0"

/-- How the program is used. -/
def usageText : String :=
  "Usage: wlbar [-c FILE] [-l LEVEL] [-o OUTPUT]... [--json] <check|modules|outputs|modes>"

/-- What a run of the program leaves. -/
structure Outcome where
  exitCode : UInt8
  /-- The lines printed. -/
  lines : List String := []
  /-- What is said about arguments that make no sense. -/
  usage : List String := []
  /-- The error that ended the run, outermost text first. -/
  error : List String := []
  /-- What was noted and is urgent enough to be logged. -/
  notices : List Notice := []

/-- The lines that tell an error and its causes.  Several causes are numbered. -/
def errorLines : (chain : List String) → List String
  | [] => []
  | [message] => ["Error: " ++ message]
  | [message, cause] => ["Error: " ++ message, "", "Caused by:", "    " ++ cause]
  | message :: causes =>
    ["Error: " ++ message, "", "Caused by:"]
      ++ causes.zipIdx.map fun cause => "    " ++ toString cause.2 ++ ": " ++ cause.1

/-- The level that notices are logged from, by the option or else by the surroundings.  A
name that is no level's is noted, and leaves the level that holds without any. -/
def logLevel (options : Options) (surrounding : Option String) : Logged Notice Level :=
  let name := (options.logLevel.or surrounding).getD Level.info.name
  match Level.ofName? name with
  | some level => pure level
  | none => .withNotes [.unknownLevel name] .info

/-- Load a configuration and show what a command asks for. -/
def execute (env : Environment) (options : Options) (command : Command) :
    Logged Notice (Except LoadError (List String)) := do
  match ← Loaded.load env options.config with
  | .error error => return .error error
  | .ok loaded => do
    Logged.note (.loaded loaded.path loaded.bars.length)
    Except.ok <$> report options command loaded

/-- Run the program with arguments.  `surrounding` is the log level that holds unless the
arguments give one. -/
def run (env : Environment) (surrounding : Option String) (arguments : List String) : Outcome :=
  match invocation arguments with
  | .usageError => { exitCode := 2, usage := [usageText] }
  | .help => { exitCode := 0, lines := [usageText] }
  | .version => { exitCode := 0, lines := [versionText] }
  | .run options command =>
    let level := logLevel options surrounding
    let result := execute env options command
    let notices :=
      (level.log ++ result.log).filter fun notice => level.value.rank ≤ notice.level.rank
    match result.value with
    | .error error => { exitCode := 1, error := error.chain, notices }
    | .ok lines => { exitCode := 0, lines, notices }

end StatusBar.CommandLine
