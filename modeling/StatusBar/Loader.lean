import StatusBar.Config
import StatusBar.Notice

/-!
# Loading

How a configuration is found, read, and put together from the files that it includes.

An object may name files under `include`.  Each of them is read, its own includes first,
and its members are added where the including object has none; so what includes wins over
what is included, and an earlier include over a later one.  A file that is being included
already is left out, and so are the includes of a file eight includes below the root.
-/

namespace StatusBar

/-- The surroundings that a configuration is looked for and read in. -/
structure Environment where
  files : FileSystem
  home : Option Path
  /-- The user's configuration directory, where one is named. -/
  configHome : Option Path

namespace Environment

/-- Where the system's configuration is. -/
def systemDirectory : Path := ⟨"/etc/xdg"⟩

/-- The directory of this program's configuration. -/
def directoryName : Path := ⟨"wlbar"⟩

/-- The names of a configuration file, the preferred one first. -/
def fileNames : List Path := [⟨"config.jsonc"⟩, ⟨"config.json"⟩, ⟨"config"⟩]

variable (env : Environment)

/-- The user's configuration directory: the one that is named, if its path is absolute,
else the one in the home directory. -/
def userDirectory? : Option Path :=
  (env.configHome.filter Path.isAbsolute).or (env.home.map fun home => home.join ⟨".config"⟩)

/-- The directories that are searched, in order. -/
def searchDirectories : List Path :=
  env.userDirectory?.toList ++ [systemDirectory]

/-- Where a configuration file may be in some directories, in order. -/
def candidates (directories : List Path) : List Path :=
  directories.flatMap fun directory =>
    fileNames.map fun name => (directory.join directoryName).join name

/-- The first configuration file in some directories. -/
def find? (directories : List Path) : Option Path :=
  (candidates directories).find? env.files.isFile

/-- The path that an include names, as seen from a directory.  What starts with `~/` lies
in the home directory. -/
def expand (base : Path) (text : String) : Path :=
  let path : Path :=
    match Text.after? "~/" text, env.home with
    | some rest, some home => home.join ⟨rest⟩
    | none, some home => if text = "~" then home else ⟨text⟩
    | _, none => ⟨text⟩
  base.join path

/-- The document that a file holds. -/
def readDocument (path : Path) : Except LoadError Document := do
  let text ← (env.files.readText path).mapError (LoadError.unreadable path)
  (Relaxed.read text).mapError (LoadError.malformed path)

end Environment

namespace Include

/-- The member that names the files to include. -/
def key : String := "include"

/-- How many files may be included one from the other, below the root. -/
def depthLimit : Nat := 8

/-- The files that an `include` names. -/
def names (value : Document) : List String :=
  match value with
  | .string name => [name]
  | value => value.texts

/-- The paths that the root of a file names for inclusion. -/
def pathsOf (env : Environment) (path : Path) (root : Document) : List Path :=
  let items :=
    match root with
    | .array items => items
    | root => [root]
  items.flatMap fun item =>
    (names (item.get key)).map (env.expand (path.parent?.getD ⟨"."⟩))

/-- What is noted about one included file, and the object that it amounts to.  `resolve`
puts the included object together. -/
def fetch (env : Environment) (resolve : Path → List Path → Members → Logged Notice Members)
    (base : Path) (chain : List Path) (name : String) : Logged Notice (Option Members) :=
  let path := env.expand base name
  let canonical := env.files.canonical path
  if chain.any canonical.same then
    .withNotes [.warning (.includeCycle path)] none
  else
    match env.readDocument path with
    | .error error => .withNotes [.warning (.includeFailed path error)] none
    | .ok (.object members) => do
      let members ← resolve (path.parent?.getD base) (chain ++ [canonical]) members
      Logged.note (.included path)
      return some members
    | .ok _ => .withNotes [.warning (.includeNotObject path)] none

/-- An object with the files that it names put in.  `chain` holds the files that are being
included, the root first, and `remaining` says how many more may follow. -/
def resolve (env : Environment) : (remaining : Nat) → (base : Path) → (chain : List Path) →
    Members → Logged Notice Members
  | remaining, base, chain, members =>
    match members.lookup key with
    | none => pure members
    | some value =>
      match remaining with
      | 0 => .withNotes [.warning (.includeTooDeep depthLimit depthLimit)] (members.swapRemove key)
      | remaining + 1 => do
        let included ← Logged.each (fetch env (resolve env remaining) base chain) (names value)
        return (included.filterMap id).foldl Members.addMissing (members.swapRemove key)

/-- The root of a configuration, or one of its items, with its includes put in. -/
def resolveRoot (env : Environment) (path : Path) (doc : Document) : Logged Notice Document :=
  match doc with
  | .object members =>
    Document.object <$>
      resolve env depthLimit (path.parent?.getD ⟨"."⟩) [env.files.canonical path] members
  | doc => pure doc

end Include

/-- The bars of a configuration file. -/
structure Loaded where
  path : Path
  bars : List Config

namespace Loaded

/-- The bars of a configuration's root, each put together on its own. -/
def ofDocument (env : Environment) (path : Path) (root : Document) : Logged Notice Loaded := do
  let root ← match root with
    | .array items => Document.array <$> Logged.each (Include.resolveRoot env path) items
    | root => Include.resolveRoot env path root
  let documents ← (barDocuments root).mapLog Notice.warning
  let bars ← (Logged.each Config.load documents).mapLog Notice.warning
  return ⟨path, bars⟩

/-- Load a configuration file. -/
def ofFile (env : Environment) (path : Path) : Logged Notice (Except LoadError Loaded) := do
  Logged.note (.loading path)
  match env.readDocument path with
  | .error error => return .error error
  | .ok root => Except.ok <$> ofDocument env path root

/-- Load the given configuration file, or the first that is found. -/
def load (env : Environment) (path? : Option Path) : Logged Notice (Except LoadError Loaded) :=
  match path?.or (env.find? env.searchDirectories) with
  | some path => ofFile env path
  | none => pure (.error (.noneFound env.searchDirectories))

end Loaded

end StatusBar
