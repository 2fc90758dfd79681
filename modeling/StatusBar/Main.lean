import StatusBar.CommandLine.Run
import StatusBar.File.Snapshot

/-!
# The program

Looks at the files that a configuration may come from, and runs the command line on what
it saw.  Nothing is decided here.
-/

namespace StatusBar.Program

/-- The cause of a failed reading.  The code of an error may come with its sign changed. -/
def fileError (error : IO.Error) : FileError :=
  match error with
  | .noFileOrDirectory .. => .notFound
  | .inappropriateType _ code _ =>
    if code = 20 ∨ code = 0 - 20 then .notDirectory
    else if code = 21 ∨ code = 0 - 21 then .isDirectory
    else .other (toString error)
  | .invalidArgument _ code _ =>
    if code = 36 ∨ code = 0 - 36 then .nameTooLong else .other (toString error)
  | error => .other (toString error)

/-- Look at a path.  The system is not asked about one that no file can have. -/
def look (path : Path) : IO Snapshot.Entry := do
  if path.hasNul then
    return { path, content := .error .nulInName, isFile := false, canonical? := none }
  let content ←
    try
      pure (.ok (← IO.FS.readBinFile path.text))
    catch error =>
      pure (.error (fileError error))
  let canonical? ←
    try
      pure (some (Path.mk (← IO.FS.realPath path.text).toString))
    catch _ =>
      pure none
  return { path, content, isFile := content.toBool, canonical? }

/-- Look at paths, and at what the documents found there name for inclusion. -/
partial def gather (env : Snapshot → Environment) (snapshot : Snapshot) :
    List Path → IO Snapshot
  | [] => return snapshot
  | path :: paths => do
    if (snapshot.entry? path).isSome then
      gather env snapshot paths
    else
      let snapshot := (← look path) :: snapshot
      let env' := env snapshot
      match env'.readDocument path with
      | .ok root => gather env snapshot (Include.pathsOf env' path root ++ paths)
      | .error _ => gather env snapshot paths

/-- The value of an environment variable as a path. -/
def variablePath? (name : String) : IO (Option Path) := do
  return (← IO.getEnv name).filter (· != "") |>.map Path.mk

end StatusBar.Program

open StatusBar StatusBar.Program in
/-- Run the command line. -/
def main (arguments : List String) : IO UInt32 := do
  let home ← variablePath? "HOME"
  let configHome ← variablePath? "XDG_CONFIG_HOME"
  let env (snapshot : Snapshot) : Environment := ⟨snapshot.fileSystem, home, configHome⟩
  let paths :=
    match CommandLine.invocation arguments with
    | .run { config := some path, .. } _ => [path]
    | .run _ _ => Environment.candidates (env []).searchDirectories
    | _ => []
  let snapshot ← gather env [] paths
  let outcome := CommandLine.run (env snapshot) (← IO.getEnv "LOG_LEVEL") arguments
  for notice in outcome.notices do
    IO.eprintln (notice.level.name ++ " " ++ notice.message)
  for line in outcome.lines do
    IO.println line
  for line in outcome.usage ++ CommandLine.errorLines outcome.error do
    IO.eprintln line
  return outcome.exitCode.toUInt32
